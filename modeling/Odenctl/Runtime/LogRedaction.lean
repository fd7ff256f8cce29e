import Mathlib.Data.List.Sort
import Mathlib.Data.List.TakeWhile
import Odenctl.Framework.Replacement
import Odenctl.Framework.Slots
import Odenctl.Framework.Utf16

/-! # Redaction of logs

    What a worker logs is redacted before it is recorded and sent to the log
    drains (`recordInvocationLogs`, `runtime/node-app.ts`): the secrets of its
    component are replaced one after the other, the longest first, and then the
    values of sensitive names. -/

namespace Odenctl.Runtime.LogRedaction

open Replacement

/-! ### Secrets -/

def redactedWord : JsString := JsString.ofString "REDACTED"

def redactedMark : JsString := 91 :: redactedWord ++ [93]

/-- The loop over the secrets, from the longest to the shortest. -/
def redactSecrets (message : JsString) (secretValues : List JsString) : JsString :=
  (secretValues.insertionSort fun left right => right.length ≤ left.length).foldl
    (fun redacted secret => replaceAll secret redactedMark redacted) message

/-! ### Sensitive names -/

/-- `\w`. -/
def isWord (u : UInt16) : Bool :=
  let n := u.toNat
  (48 ≤ n && n ≤ 57) || (65 ≤ n && n ≤ 90) || n == 95 || (97 ≤ n && n ≤ 122)

/-- `\s`. -/
def isSpace (u : UInt16) : Bool :=
  let n := u.toNat
  (9 ≤ n && n ≤ 13) || n == 0x20 || n == 0xa0 || n == 0x1680 || (0x2000 ≤ n && n ≤ 0x200a)
    || n == 0x2028 || n == 0x2029 || n == 0x202f || n == 0x205f || n == 0x3000 || n == 0xfeff

/-- `[:=]`. -/
def isSeparator (u : UInt16) : Bool := u.toNat == 58 || u.toNat == 61

/-- `[^,\r\n]`. -/
def inValue (u : UInt16) : Bool := !(u.toNat == 44 || u.toNat == 13 || u.toNat == 10)

/-- A code unit, as the flag `i` compares it with those of the names. -/
def lower (u : UInt16) : UInt16 :=
  if 65 ≤ u.toNat ∧ u.toNat ≤ 90 then u + 32 else u

def sensitiveNames : List JsString :=
  ["authorization", "cookie", "set-cookie", "x-api-key", "api-key", "api_key", "apikey", "token",
    "password", "secret"].map JsString.ofString

/-- `\s*([^,\r\n]+)`, which gives back spaces when nothing else is left for a value. -/
def matchValue : JsString → Option (JsString × JsString)
  | [] => none
  | u :: us =>
    let here := if inValue u then some ([], (u :: us).takeWhile inValue) else none
    if isSpace u then
      match matchValue us with
      | some (spaces, value) => some (u :: spaces, value)
      | none => here
    else here

/-- `(\s*[:=]\s*)([^,\r\n]+)`: the separator and the value. -/
def matchSeparator (text : JsString) : Option (JsString × JsString) :=
  match text.dropWhile isSpace with
  | [] => none
  | c :: rest =>
    if isSeparator c then
      (matchValue rest).map fun (spaces, value) => (text.takeWhile isSpace ++ c :: spaces, value)
    else none

/-- The expression at the place of the scan: it keeps the key and the separator. -/
def matchPair (prev : Option UInt16) (text : JsString) : Option (Match UInt16) :=
  if prev.any isWord = text.head?.any isWord then none
  else
    sensitiveNames.findSome? fun name =>
      if (text.take name.length).map lower = name then
        (matchSeparator (text.drop name.length)).map fun (separator, value) =>
          ⟨text.take name.length ++ separator, value⟩
      else none

def redactLogMessage (message : JsString) (secretValues : List JsString) : JsString :=
  replace matchPair redactedMark none 0 (redactSecrets message secretValues)

/-! ### Logs -/

inductive LogLevel where
  | debug
  | info
  | warn
  | error
  deriving DecidableEq

/-- A line that a worker logs.  It has no level if it gives none of the four,
    and no message if what it gives is not a string. -/
structure RuntimeWorkerLogLine where
  level : Option LogLevel
  message : Option JsString
  deriving DecidableEq

def normalizeLogLevel (value : Option LogLevel) : LogLevel := value.getD .info

structure RuntimeLogEntry where
  timestamp : String
  requestId : String
  host : String
  path : String
  projectId : Option String
  deploymentId : Option String
  level : LogLevel
  message : JsString
  deriving DecidableEq

/-- The argument of `recordInvocationLogs`. -/
structure InvocationLogs where
  timestamp : String
  requestId : String
  host : String
  path : String
  projectId : Option String
  deploymentId : Option String
  lines : Option (List RuntimeWorkerLogLine)
  secretValues : List JsString
  deriving DecidableEq

def InvocationLogs.entry (input : InvocationLogs) (line : RuntimeWorkerLogLine) :
    Option RuntimeLogEntry :=
  let message := line.message.getD []
  if message.length = 0 then none
  else
    some {
      timestamp := input.timestamp
      requestId := input.requestId
      host := input.host
      path := input.path
      projectId := input.projectId
      deploymentId := input.deploymentId
      level := normalizeLogLevel line.level
      message := redactLogMessage message input.secretValues }

/-- One round of the loop over the lines: the entries that are kept, and those
    that are recorded. -/
def recordLine (limit : Nat) (input : InvocationLogs)
    (logs : List RuntimeLogEntry × List RuntimeLogEntry) (line : RuntimeWorkerLogLine) :
    List RuntimeLogEntry × List RuntimeLogEntry :=
  match input.entry line with
  | none => logs
  | some entry =>
    let entries := logs.1 ++ [entry]
    (entries.drop (entries.length - max 1 limit), logs.2 ++ [entry])

/-- `createRuntimeLogs(limit).recordInvocationLogs(input)`: the entries that are
    kept, and those that are recorded, which go to the log drains. -/
def recordInvocationLogs (limit : Nat) (entries : List RuntimeLogEntry) (input : InvocationLogs) :
    List RuntimeLogEntry × List RuntimeLogEntry :=
  (input.lines.getD []).foldl (recordLine limit input) (entries, [])

/-! ### No secret is left -/

/-- The secret fits neither across an end of the mark nor into it. -/
structure Replaceable (secret : JsString) : Prop where
  ne_nil : secret ≠ []
  notMem_open : 91 ∉ secret
  notMem_close : 93 ∉ secret
  not_infix : ¬ secret <:+: redactedWord

theorem not_infix_foldl {secret : JsString} (hsecret : Replaceable secret)
    {secretValues : List JsString} (hne : ∀ other ∈ secretValues, other ≠ []) {text : JsString}
    (h : secret ∈ secretValues ∨ ¬ secret <:+: text) :
    ¬ secret <:+: secretValues.foldl
      (fun redacted other => replaceAll other redactedMark redacted) text := by
  obtain ⟨hnil, hopen, hclose, hword⟩ := hsecret
  induction secretValues generalizing text with
  | nil => simpa using h
  | cons other rest ih =>
    rw [List.forall_mem_cons] at hne
    refine ih hne.2 ?_
    by_cases hrest : secret ∈ rest
    · exact .inl hrest
    · right
      rcases h with hmem | hgone
      · obtain rfl : secret = other := by simpa [hrest] using hmem
        exact not_infix_replaceAll hnil hopen hclose hword
      · exact fun hpart =>
          hgone (infix_of_replaceAll hne.1 hpart hopen hclose hword)

theorem not_infix_redactSecrets {secret : JsString} (hsecret : Replaceable secret)
    {secretValues : List JsString} (hne : ∀ other ∈ secretValues, other ≠ [])
    (hmem : secret ∈ secretValues) (message : JsString) :
    ¬ secret <:+: redactSecrets message secretValues := by
  refine not_infix_foldl hsecret (fun other hother => hne other ?_) (.inl ?_)
  · exact (List.mem_insertionSort _).mp hother
  · exact (List.mem_insertionSort _).mpr hmem

/-! ### Pairs -/

structure IsPair (key gap : JsString) (c : UInt16) (spaces : JsString) : Prop where
  key : key.map lower ∈ sensitiveNames
  gap : ∀ u ∈ gap, isSpace u = true
  separator : isSeparator c = true
  spaces : ∀ u ∈ spaces, isSpace u = true

structure IsValue (value post : JsString) : Prop where
  ne_nil : value ≠ []
  all : ∀ u ∈ value, inValue u = true
  ends : ∀ u ∈ post.head?, inValue u = false

theorem isValue_takeWhile {u : UInt16} (us : JsString) (hu : inValue u = true) :
    IsValue ((u :: us).takeWhile inValue) ((u :: us).dropWhile inValue) where
  ne_nil := by simp [hu]
  all v hv := List.mem_takeWhile_imp hv
  ends v hv := by
    have hhead := List.head?_dropWhile_not inValue (u :: us)
    rw [Option.mem_def.mp hv] at hhead
    simpa using hhead

theorem matchValue_some {text spaces value : JsString}
    (h : matchValue text = some (spaces, value)) :
    (∀ u ∈ spaces, isSpace u = true) ∧
      ∃ post, text = spaces ++ value ++ post ∧ IsValue value post := by
  induction text generalizing spaces value with
  -- along the text: spaces are skipped, and the value starts at the first other character
  | nil => cases h
  | cons u us ih =>
    have hhere (h : (if inValue u = true then
        some (([] : JsString), (u :: us).takeWhile inValue) else none) = some (spaces, value)) :
        (∀ u ∈ spaces, isSpace u = true) ∧
          ∃ post, u :: us = spaces ++ value ++ post ∧ IsValue value post := by
      obtain ⟨hu, heq⟩ := Option.ite_none_right_eq_some.mp h
      obtain ⟨rfl, rfl⟩ := Prod.mk.inj (Option.some.inj heq)
      refine ⟨nofun, (u :: us).dropWhile inValue, ?_, isValue_takeWhile us hu⟩
      exact List.takeWhile_append_dropWhile.symm
    unfold matchValue at h
    dsimp only at h
    by_cases hspace : isSpace u = true
    · rw [if_pos hspace] at h
      cases hmatch : matchValue us with
      | none =>
        rw [hmatch] at h
        exact hhere h
      | some found =>
        rw [hmatch] at h
        obtain ⟨rfl, rfl⟩ := Prod.mk.inj (Option.some.inj h)
        obtain ⟨hspaces, post, rfl, hvalue⟩ := ih hmatch
        exact ⟨List.forall_mem_cons.mpr ⟨hspace, hspaces⟩, post, rfl, hvalue⟩
    · rw [if_neg hspace] at h
      exact hhere h

theorem matchValue_isSome {spaces : JsString} (hspaces : ∀ u ∈ spaces, isSpace u = true)
    {y : UInt16} (hy : inValue y = true) (rest : JsString) :
    (matchValue (spaces ++ y :: rest)).isSome := by
  induction spaces with
  | nil =>
    rw [List.nil_append]
    unfold matchValue
    dsimp only
    split
    · split
      · rfl
      · simp [hy]
    · simp [hy]
  | cons u spaces ih =>
    rw [List.forall_mem_cons] at hspaces
    obtain ⟨found, hfound⟩ := Option.isSome_iff_exists.mp (ih hspaces.2)
    rw [List.cons_append]
    unfold matchValue
    simp [hspaces.1, hfound]

theorem matchSeparator_some {text separator value : JsString}
    (h : matchSeparator text = some (separator, value)) :
    ∃ gap c spaces post, separator = gap ++ c :: spaces ∧ text = separator ++ value ++ post ∧
      (∀ u ∈ gap, isSpace u = true) ∧ isSeparator c = true ∧ (∀ u ∈ spaces, isSpace u = true) ∧
      IsValue value post := by
  unfold matchSeparator at h
  have htext := List.takeWhile_append_dropWhile (p := isSpace) (l := text)
  cases hrest : text.dropWhile isSpace with
  | nil => simp [hrest] at h
  | cons c rest =>
    rw [hrest] at h
    obtain ⟨hseparator, h⟩ := Option.ite_none_right_eq_some.mp h
    obtain ⟨⟨spaces, value'⟩, hmatch, heq⟩ := Option.map_eq_some_iff.mp h
    obtain ⟨rfl, rfl⟩ := Prod.mk.inj heq
    obtain ⟨hspaces, post, rfl, hvalue⟩ := matchValue_some hmatch
    refine ⟨text.takeWhile isSpace, c, spaces, post, rfl, ?_, fun u hu => List.mem_takeWhile_imp hu,
      hseparator, hspaces, hvalue⟩
    rw [hrest] at htext
    refine htext.symm.trans ?_
    simp

theorem takeWhile_space {gap : JsString} {c : UInt16} (rest : JsString)
    (hgap : ∀ u ∈ gap, isSpace u = true) (hc : isSpace c = false) :
    (gap ++ c :: rest).takeWhile isSpace = gap ∧
      (gap ++ c :: rest).dropWhile isSpace = c :: rest := by
  rw [List.takeWhile_append_of_pos hgap, List.dropWhile_append_of_pos hgap]
  simp [hc]

theorem separator_not_space {c : UInt16} (h : isSeparator c = true) : isSpace c = false := by
  unfold isSeparator at h
  simp only [Bool.or_eq_true, beq_iff_eq] at h
  unfold isSpace
  rcases h with h | h <;> simp [h]

theorem matchSeparator_isSome {gap spaces : JsString} {c y : UInt16} (rest : JsString)
    (hgap : ∀ u ∈ gap, isSpace u = true) (hc : isSeparator c = true)
    (hspaces : ∀ u ∈ spaces, isSpace u = true) (hy : inValue y = true) :
    (matchSeparator (gap ++ c :: (spaces ++ y :: rest))).isSome := by
  unfold matchSeparator
  rw [(takeWhile_space _ hgap (separator_not_space hc)).2]
  simp [hc, matchValue_isSome hspaces hy rest]

/-! ### Keys -/

/-- The code units of keys. -/
def isLetter (u : UInt16) : Bool :=
  let n := u.toNat
  n == 45 || (65 ≤ n && n ≤ 90) || n == 95 || (97 ≤ n && n ≤ 122)

theorem isLetter_of_lower {u : UInt16} (h : isLetter (lower u) = true) : isLetter u = true := by
  unfold lower at h
  split at h
  · next hupper =>
    unfold isLetter
    simp only [Bool.or_eq_true, Bool.and_eq_true, decide_eq_true_eq, beq_iff_eq]
    omega
  · exact h

/-- A key is a word of letters, and begins with one of a word. -/
theorem letters_of_name {name : JsString} (h : name ∈ sensitiveNames) :
    (∀ u ∈ name, isLetter u = true) ∧
      ∃ u rest, name = u :: rest ∧ 97 ≤ u.toNat ∧ u.toNat ≤ 122 := by
  have hall : ∀ name ∈ sensitiveNames, (name.all isLetter &&
      name.head?.any fun u => decide (97 ≤ u.toNat) && decide (u.toNat ≤ 122)) = true := by
    decide +kernel
  have hname := hall name h
  simp only [Bool.and_eq_true, List.all_eq_true] at hname
  refine ⟨hname.1, ?_⟩
  cases name with
  | nil => simp at hname
  | cons u rest => exact ⟨u, rest, rfl, by simpa using hname.2⟩

theorem letter_cases {u : UInt16} (h : isLetter u = true) :
    isSpace u = false ∧ isSeparator u = false ∧ inValue u = true ∧ u ≠ 91 ∧ u ≠ 93 := by
  unfold isLetter at h
  simp only [Bool.or_eq_true, Bool.and_eq_true, decide_eq_true_eq, beq_iff_eq] at h
  refine ⟨?_, ?_, ?_, ?_, ?_⟩
  · unfold isSpace
    simp only [Bool.or_eq_false_iff, Bool.and_eq_false_iff, decide_eq_false_iff_not,
      beq_eq_false_iff_ne]
    omega
  · unfold isSeparator
    simp only [Bool.or_eq_false_iff, beq_eq_false_iff_ne]
    omega
  · unfold inValue
    simp only [Bool.not_eq_true', Bool.or_eq_false_iff, beq_eq_false_iff_ne]
    omega
  · rintro rfl
    simp at h
  · rintro rfl
    simp at h

section keys
variable {key : JsString}

theorem letters_of_key (h : key.map lower ∈ sensitiveNames) : ∀ u ∈ key, isLetter u = true :=
  fun _ hu => isLetter_of_lower ((letters_of_name h).1 _ (List.mem_map_of_mem hu))

theorem key_head (h : key.map lower ∈ sensitiveNames) :
    ∃ u rest, key = u :: rest ∧ isWord u = true := by
  obtain ⟨-, v, vs, hname, hv⟩ := letters_of_name h
  cases key with
  | nil => cases hname
  | cons u rest =>
    obtain ⟨rfl, -⟩ := List.cons.inj hname
    refine ⟨u, rest, rfl, ?_⟩
    unfold lower at hv
    unfold isWord
    simp only [Bool.or_eq_true, Bool.and_eq_true, decide_eq_true_eq, beq_iff_eq]
    split at hv
    · omega
    · omega

end keys

/-! ### Matches -/

theorem matchPair_some {prev : Option UInt16} {text : JsString} {m : Match UInt16}
    (h : matchPair prev text = some m) :
    ∃ key gap c spaces post, IsPair key gap c spaces ∧ m.kept = key ++ (gap ++ c :: spaces) ∧
      text = m.kept ++ m.lost ++ post ∧ IsValue m.lost post := by
  unfold matchPair at h
  split at h
  · cases h
  · obtain ⟨name, hname, h⟩ := List.exists_of_findSome?_eq_some h
    obtain ⟨hkey, h⟩ := Option.ite_none_right_eq_some.mp h
    obtain ⟨⟨separator, value⟩, hmatch, rfl⟩ := Option.map_eq_some_iff.mp h
    obtain ⟨gap, c, spaces, post, rfl, hrest, hgap, hc, hspaces, hvalue⟩ :=
      matchSeparator_some hmatch
    have hsensitive : (text.take name.length).map lower ∈ sensitiveNames := by
      rw [hkey]
      exact hname
    refine ⟨text.take name.length, gap, c, spaces, post, ⟨hsensitive, hgap, hc, hspaces⟩, rfl, ?_,
      hvalue⟩
    refine (List.take_append_drop name.length text).symm.trans ?_
    rw [hrest]
    simp

theorem matchPair_isSome {prev : Option UInt16} {key gap spaces : JsString} {c y : UInt16}
    (rest : JsString) (hprev : prev.any isWord = false) (hpair : IsPair key gap c spaces)
    (hy : inValue y = true) :
    (matchPair prev (key ++ (gap ++ c :: (spaces ++ y :: rest)))).isSome := by
  obtain ⟨u, us, hu, hword⟩ := key_head hpair.key
  have hlength : (key.map lower).length = key.length := List.length_map ..
  have hseparator := matchSeparator_isSome rest hpair.gap hpair.separator hpair.spaces hy
  unfold matchPair
  rw [if_neg]
  · rw [List.findSome?_isSome_iff]
    refine ⟨key.map lower, hpair.key, ?_⟩
    rw [hlength, List.take_left, List.drop_left, if_pos rfl, Option.isSome_map]
    exact hseparator
  · simp [hprev, hu, hword]

theorem sound_matchPair : Sound matchPair := by
  intro prev text m h
  obtain ⟨key, gap, c, spaces, post, -, -, htext, hvalue⟩ := matchPair_some h
  exact ⟨hvalue.ne_nil, post, htext⟩

/-- The scan keeps the letter it starts with. -/
theorem head?_replaces {prev : Option UInt16} {text out : JsString}
    (h : Replaces matchPair redactedMark prev text out) : out.head? = text.head? := by
  cases h with
  | nil => rfl
  | next => rfl
  | found prev kept lost post out hmatch =>
    obtain ⟨key, gap, c, spaces, -, hpair, hkept, -⟩ := matchPair_some hmatch
    obtain ⟨u, us, rfl, -⟩ := key_head hpair.key
    dsimp only at hkept
    rw [hkept]
    rfl

/-! ### What pairs carry -/

/-- What follows the separator, up to the next comma or the end of the line,
    carries nothing but the mark. -/
def CarriesMark (rest : JsString) : Prop :=
  (rest.takeWhile inValue).dropWhile isSpace = [] ∨
    (rest.takeWhile inValue).dropWhile isSpace = redactedMark

/-- Every pair of a text whose key is sensitive carries nothing but the mark. -/
def PairsRedacted (text : JsString) : Prop :=
  ∀ pre key gap c rest, text = pre ++ (key ++ (gap ++ c :: rest)) →
    (∀ u ∈ pre.getLast?, isWord u = false) → IsPair key gap c [] → CarriesMark rest

theorem carriesMark_spaces {spaces rest : JsString} (hspaces : ∀ u ∈ spaces, isSpace u = true)
    (h : CarriesMark rest) : CarriesMark (spaces ++ rest) := by
  induction spaces with
  | nil => exact h
  | cons u spaces ih =>
    rw [List.forall_mem_cons] at hspaces
    have hrest := ih hspaces.2
    unfold CarriesMark at hrest ⊢
    by_cases hu : inValue u = true
    · simpa [hu, hspaces.1] using hrest
    · simp [hu]

theorem carriesMark_of_ends {rest : JsString} (h : ∀ u ∈ rest.head?, inValue u = false) :
    CarriesMark rest := by
  left
  cases rest with
  | nil => rfl
  | cons u rest => simp [h u rfl]

theorem carriesMark_mark {rest : JsString} (h : ∀ u ∈ rest.head?, inValue u = false) :
    CarriesMark (redactedMark ++ rest) := by
  have hmark : ∀ u ∈ redactedMark, inValue u = true :=
    List.all_eq_true.mp (by decide +kernel)
  right
  rw [List.takeWhile_append_of_pos hmark]
  have hrest : rest.takeWhile inValue = [] := by
    cases rest with
    | nil => rfl
    | cons u rest => simp [h u rfl]
  rw [hrest, List.append_nil]
  decide +kernel

theorem takeWhile_letters {key gap : JsString} {c : UInt16} (rest : JsString)
    (hkey : ∀ u ∈ key, isLetter u = true) (hgap : ∀ u ∈ gap, isSpace u = true)
    (hc : isSeparator c = true) :
    (key ++ (gap ++ c :: rest)).takeWhile isLetter = key ∧
      (key ++ (gap ++ c :: rest)).dropWhile isLetter = gap ++ c :: rest := by
  have hend (u : UInt16) (hu : isSpace u = true ∨ isSeparator u = true) : isLetter u = false := by
    by_contra hletter
    obtain ⟨hspace, hseparator, -⟩ := letter_cases (by simpa using hletter)
    simp [hspace, hseparator] at hu
  rw [List.takeWhile_append_of_pos hkey, List.dropWhile_append_of_pos hkey]
  cases gap with
  | nil => simp [hend c (.inr hc)]
  | cons u gap => simp [hend u (.inl (hgap u List.mem_cons_self))]

theorem pair_unique {key key' gap gap' rest rest' : JsString} {c c' : UInt16}
    (hkey : ∀ u ∈ key, isLetter u = true) (hkey' : ∀ u ∈ key', isLetter u = true)
    (hgap : ∀ u ∈ gap, isSpace u = true) (hgap' : ∀ u ∈ gap', isSpace u = true)
    (hc : isSeparator c = true) (hc' : isSeparator c' = true)
    (h : key ++ (gap ++ c :: rest) = key' ++ (gap' ++ c' :: rest')) : rest = rest' := by
  have hdrop := (takeWhile_letters rest hkey hgap hc).2
  rw [h, (takeWhile_letters rest' hkey' hgap' hc').2] at hdrop
  have hspaces := (takeWhile_space rest' hgap' (separator_not_space hc')).2
  rw [hdrop, (takeWhile_space rest hgap (separator_not_space hc)).2] at hspaces
  exact (List.cons.inj hspaces).2

theorem no_key_in_mark {key a b rest : JsString} (hkey : key.map lower ∈ sensitiveNames)
    (hmark : redactedMark = a ++ b) (hb : b ≠ []) : ¬ key <+: b ++ rest := by
  intro hfront
  have hletters := letters_of_key hkey
  have hclose : (93 : UInt16) ∉ key := fun hmem => (letter_cases (hletters _ hmem)).2.2.2.2 rfl
  obtain ⟨b, d, rfl⟩ := (List.eq_nil_or_concat b).resolve_left hb
  have hlast : d = 93 := by
    have hends := congrArg List.getLast? hmark
    rw [show redactedMark.getLast? = some 93 by decide +kernel] at hends
    simpa using hends.symm
  subst hlast
  have hkeyb : key <+: b := by
    refine prefix_append_cons (b := rest) ?_ hclose
    simpa using hfront
  have hpart : key.map lower <:+: redactedMark.map lower := by
    rw [hmark]
    obtain ⟨more, rfl⟩ := hkeyb
    exact ⟨a.map lower, (more ++ [93]).map lower, by simp⟩
  have hnone : ∀ name ∈ sensitiveNames, ¬ name <:+: redactedMark.map lower := by decide +kernel
  exact hnone _ hkey hpart

theorem lost_inValue {prev : Option UInt16} {text : JsString} {m : Match UInt16}
    (h : matchPair prev text = some m) : ∀ y ∈ m.lost.head?, inValue y = true := by
  obtain ⟨_, _, _, _, post, -, -, -, hvalue⟩ := matchPair_some h
  exact fun y hy => hvalue.all y (List.mem_of_mem_head? hy)

/-- A pair at a place where nothing matches has no value. -/
theorem carriesMark_unmatched {prev : Option UInt16} {text key gap rest : JsString} {c : UInt16}
    (h : Replaces matchPair redactedMark prev text (key ++ (gap ++ c :: rest)))
    (hnone : matchPair prev text = none) (hprev : prev.any isWord = false)
    (hpair : IsPair key gap c []) : CarriesMark rest := by
  have hspaces : ∀ u ∈ rest.takeWhile isSpace, isSpace u = true :=
    fun u hu => List.mem_takeWhile_imp hu
  rw [← List.takeWhile_append_dropWhile (p := isSpace) (l := rest)] at h ⊢
  generalize rest.takeWhile isSpace = spaces at h hspaces ⊢
  generalize rest.dropWhile isSpace = rest at h ⊢
  -- a value behind the separator would have been a match of its own
  refine carriesMark_spaces hspaces (carriesMark_of_ends fun x hx => ?_)
  by_contra hvalue
  obtain ⟨more, rfl⟩ := List.head?_eq_some_iff.mp hx
  have hopen : (91 : UInt16) ∉ key ++ (gap ++ c :: spaces) := by
    have hspace (u : UInt16) (hu : isSpace u = true) : 91 ≠ u := by
      rintro rfl
      exact absurd hu (by decide)
    have hseparator : 91 ≠ c := by
      rintro rfl
      exact absurd hpair.separator (by decide)
    simp only [List.mem_append, List.mem_cons, not_or]
    exact ⟨fun hmem => (letter_cases (letters_of_key hpair.key _ hmem)).2.2.2.1 rfl,
      fun hmem => hspace _ (hpair.gap _ hmem) rfl, hseparator,
      fun hmem => hspace _ (hspaces _ hmem) rfl⟩
  have hsplit : key ++ (gap ++ c :: (spaces ++ x :: more)) =
      key ++ (gap ++ c :: spaces) ++ x :: more := by
    simp
  obtain ⟨y, after, htext, hy⟩ := h.prefix_next rfl (P := fun y => inValue y = true)
    (fun _ _ _ hmatch => lost_inValue hmatch) hsplit hopen
  have hyvalue : inValue y = true := by
    rcases hy with rfl | hy
    · simpa using hvalue
    · exact hy
  have hmatches := matchPair_isSome after hprev
    (⟨hpair.key, hpair.gap, hpair.separator, hspaces⟩ : IsPair key gap c spaces) hyvalue
  have hsame : text = key ++ (gap ++ c :: (spaces ++ y :: after)) := by simpa using htext
  rw [← hsame, hnone] at hmatches
  cases hmatches

theorem carriesMark_found {kept lost post out pre key gap rest : JsString} {c : UInt16}
    {prev : Option UInt16}
    (hmatch : matchPair prev (kept ++ lost ++ post) = some ⟨kept, lost⟩)
    (hrest : Replaces matchPair redactedMark lost.getLast? post out)
    (hout : kept ++ redactedMark ++ out = pre ++ (key ++ (gap ++ c :: rest)))
    (hpair : IsPair key gap c []) :
    CarriesMark rest ∨ ∃ pre', pre' ≠ [] ∧ pre = kept ++ redactedMark ++ pre' ∧
      out = pre' ++ (key ++ (gap ++ c :: rest)) := by
  obtain ⟨key₀, gap₀, c₀, spaces, post', hpair₀, hkept, htext, hvalue⟩ := matchPair_some hmatch
  obtain rfl : post = post' := List.append_cancel_left htext
  dsimp only at hkept hvalue
  have hends : ∀ u ∈ out.head?, inValue u = false := by
    rw [head?_replaces hrest]
    exact hvalue.ends
  obtain ⟨u, us, hu, -⟩ := key_head hpair.key
  obtain ⟨hspace, hseparator, hletter, -⟩ :=
    letter_cases (letters_of_key hpair.key u (by simp [hu]))
  -- behind the mark stands the end of a value, which begins no key
  have hnot (heq : out = key ++ (gap ++ c :: rest)) : False := by
    have hhead := hends u (by simp [heq, hu])
    simp [hletter] at hhead
  rcases List.append_eq_append_iff.mp hout with ⟨pre', rfl, heq⟩ | ⟨b, hb, heq⟩
  · right
    refine ⟨pre', ?_, rfl, heq⟩
    rintro rfl
    exact hnot heq
  · left
    have hkey : key <+: b ++ out := by
      rw [← heq]
      exact List.prefix_append _ _
    rcases List.append_eq_append_iff.mp hb with ⟨a, rfl, hmark⟩ | ⟨d, hd, rfl⟩
    · by_cases hnil : b = []
      · subst hnil
        exact (hnot heq.symm).elim
      · exact absurd hkey (no_key_in_mark hpair.key hmark hnil)
    · rw [hkept] at hd
      rcases List.append_eq_append_iff.mp hd with ⟨a, rfl, hseps⟩ | ⟨d', hkey₀, rfl⟩
      · cases d with
        | nil => exact absurd hkey (no_key_in_mark (a := []) hpair.key rfl (by decide +kernel))
        | cons x d =>
          -- a separator begins no key either
          have hx : x ∈ gap₀ ++ c₀ :: spaces := by simp [hseps]
          rw [hu] at hkey
          obtain ⟨rfl, -⟩ := List.cons_prefix_cons.mp hkey
          simp only [List.mem_append, List.mem_cons] at hx
          rcases hx with hgap | rfl | hspaces
          · simp [hpair₀.gap u hgap] at hspace
          · simp [hpair₀.separator] at hseparator
          · simp [hpair₀.spaces u hspaces] at hspace
      · have hletters : ∀ u ∈ d', isLetter u = true := fun u hu =>
          letters_of_key hpair₀.key u (by simp [hkey₀, hu])
        have hread : key ++ (gap ++ c :: rest) =
            d' ++ (gap₀ ++ c₀ :: (spaces ++ (redactedMark ++ out))) := by
          simpa using heq
        have hsame := pair_unique (letters_of_key hpair.key) hletters hpair.gap hpair₀.gap
          hpair.separator hpair₀.separator hread
        rw [hsame]
        exact carriesMark_spaces hpair₀.spaces (carriesMark_mark hends)

theorem pairs_replaces {prev : Option UInt16} {text out : JsString}
    (h : Replaces matchPair redactedMark prev text out) {pre key gap rest : JsString} {c : UInt16}
    (hout : out = pre ++ (key ++ (gap ++ c :: rest)))
    (hpre : ∀ u ∈ pre.getLast?.or prev, isWord u = false) (hpair : IsPair key gap c []) :
    CarriesMark rest := by
  -- along the replacement: up to the pair nothing was replaced, or the mark is in it
  induction h generalizing pre with
  | nil => simp at hout
  | next prev u us out hnone hrest ih =>
    cases pre with
    | nil =>
      have hscan := Replaces.next prev u us out hnone hrest
      rw [hout, List.nil_append] at hscan
      refine carriesMark_unmatched hscan hnone ?_ hpair
      cases prev with
      | none => rfl
      | some x => simpa using hpre x
    | cons v pre =>
      obtain ⟨rfl, htail⟩ := List.cons.inj hout
      refine ih htail fun x hx => hpre x ?_
      cases pre with
      | nil => simpa using hx
      | cons y pre =>
        rw [List.getLast?_cons_cons]
        cases hlast : (y :: pre).getLast? with
        | none => simp at hlast
        | some z => simpa [hlast] using hx
  | found prev kept lost post out hmatch _ hrest ih =>
    rcases carriesMark_found hmatch hrest hout hpair with hcarries | ⟨pre', hne, rfl, hpost⟩
    · exact hcarries
    · refine ih hpost fun x hx => hpre x ?_
      obtain ⟨pre', y, rfl⟩ := (List.eq_nil_or_concat pre').resolve_left hne
      simpa using hx

/-! ### What is recorded -/

theorem pairsRedacted (message : JsString) (secretValues : List JsString) :
    PairsRedacted (redactLogMessage message secretValues) := by
  intro pre key gap c rest hout hpre hpair
  have hscan := replace_replaces sound_matchPair redactedMark none
    (redactSecrets message secretValues)
  exact pairs_replaces hscan hout (by simpa using hpre) hpair

theorem not_infix_redactLogMessage {secret : JsString} (hsecret : Replaceable secret)
    {secretValues : List JsString} (hne : ∀ other ∈ secretValues, other ≠ [])
    (hmem : secret ∈ secretValues) (message : JsString) :
    ¬ secret <:+: redactLogMessage message secretValues := by
  intro hpart
  have hscan := replace_replaces sound_matchPair redactedMark none
    (redactSecrets message secretValues)
  exact not_infix_redactSecrets hsecret hne hmem message
    (hscan.infix_text hpart hsecret.notMem_open hsecret.notMem_close hsecret.not_infix)

/-- What is recorded has been redacted, and nothing else is kept. -/
theorem recorded_redacted (limit : Nat) (entries : List RuntimeLogEntry) (input : InvocationLogs) :
    (∀ entry ∈ (recordInvocationLogs limit entries input).2,
      ∃ message, entry.message = redactLogMessage message input.secretValues) ∧
    ∀ entry ∈ (recordInvocationLogs limit entries input).1,
      entry ∈ entries ∨ entry ∈ (recordInvocationLogs limit entries input).2 := by
  have hloop (lines : List RuntimeWorkerLogLine)
      (logs : List RuntimeLogEntry × List RuntimeLogEntry)
      (hrecorded : ∀ entry ∈ logs.2,
        ∃ message, entry.message = redactLogMessage message input.secretValues)
      (hkept : ∀ entry ∈ logs.1, entry ∈ entries ∨ entry ∈ logs.2) :
      (∀ entry ∈ (lines.foldl (recordLine limit input) logs).2,
        ∃ message, entry.message = redactLogMessage message input.secretValues) ∧
      ∀ entry ∈ (lines.foldl (recordLine limit input) logs).1,
        entry ∈ entries ∨ entry ∈ (lines.foldl (recordLine limit input) logs).2 := by
    -- line by line, with what has been recorded so far
    induction lines generalizing logs with
    | nil => exact ⟨hrecorded, hkept⟩
    | cons line lines ih =>
      rw [List.foldl_cons]
      unfold recordLine
      cases hentry : input.entry line with
      | none => exact ih logs hrecorded hkept
      | some entry =>
        have hmessage : ∃ message, entry.message = redactLogMessage message input.secretValues := by
          unfold InvocationLogs.entry at hentry
          obtain ⟨-, ⟨⟩⟩ := Option.ite_none_left_eq_some.mp hentry
          exact ⟨_, rfl⟩
        refine ih _ (Slots.forall_snoc hrecorded hmessage) fun other hother => ?_
        rcases List.mem_append.mp (List.mem_of_mem_drop hother) with hold | hnew
        · exact (hkept other hold).imp_right (List.mem_append_left _)
        · exact .inr (List.mem_append_right _ hnew)
  exact hloop _ _ nofun fun _ h => .inl h

/-- **Redaction**: no message that is recorded contains a secret, and every
    pair in it whose key is sensitive carries nothing but the mark. -/
theorem logRedaction {input : InvocationLogs}
    (hsecrets : ∀ secret ∈ input.secretValues, Replaceable secret) (limit : Nat)
    (entries : List RuntimeLogEntry) :
    (∀ entry ∈ (recordInvocationLogs limit entries input).2,
      (∀ secret ∈ input.secretValues, ¬ secret <:+: entry.message) ∧ PairsRedacted entry.message) ∧
    ∀ entry ∈ (recordInvocationLogs limit entries input).1,
      entry ∈ entries ∨ entry ∈ (recordInvocationLogs limit entries input).2 := by
  obtain ⟨hrecorded, hkept⟩ := recorded_redacted limit entries input
  refine ⟨fun entry hentry => ?_, hkept⟩
  obtain ⟨message, hmessage⟩ := hrecorded entry hentry
  rw [hmessage]
  refine ⟨fun secret hsecret => ?_, pairsRedacted message input.secretValues⟩
  have hne (other : JsString) (hother : other ∈ input.secretValues) : other ≠ [] :=
    (hsecrets other hother).ne_nil
  exact not_infix_redactLogMessage (hsecrets secret hsecret) hne hsecret message

/-- Secrets that overlap and contain each other, next to a pair. -/
def sampleLogs : InvocationLogs where
  timestamp := "2026-01-01T00:00:00.000Z"
  requestId := "r1"
  host := "shop.test"
  path := "/"
  projectId := some "shop"
  deploymentId := some "d1"
  lines := some [⟨none, some (JsString.ofString "abcab Set-Cookie : sid=1; x, bca")⟩]
  secretValues := [JsString.ofString "abca", JsString.ofString "bca"]

theorem logRedaction_sample :
    (recordInvocationLogs 100 [] sampleLogs).2.map RuntimeLogEntry.message =
        [JsString.ofString "[REDACTED]b Set-Cookie : [REDACTED], [REDACTED]"] ∧
      ∀ entry ∈ (recordInvocationLogs 100 [] sampleLogs).2,
        ¬ JsString.ofString "bca" <:+: entry.message := by
  have hsecrets : ∀ secret ∈ sampleLogs.secretValues, Replaceable secret := by
    intro secret hsecret
    have hall : ∀ secret ∈ sampleLogs.secretValues, secret ≠ [] ∧ 91 ∉ secret ∧ 93 ∉ secret ∧
        ¬ secret <:+: redactedWord := by
      decide +kernel
    obtain ⟨hne, hopen, hclose, hword⟩ := hall secret hsecret
    exact ⟨hne, hopen, hclose, hword⟩
  refine ⟨by decide +kernel, fun entry hentry => ?_⟩
  exact ((logRedaction hsecrets 100 []).1 entry hentry).1 _ (by decide +kernel)

/-! ### The buffer -/

def newest (limit : Nat) (sent : List RuntimeLogEntry) : List RuntimeLogEntry :=
  sent.drop (sent.length - max 1 limit)

theorem newest_snoc (limit : Nat) (sent : List RuntimeLogEntry) (entry : RuntimeLogEntry) :
    newest limit (newest limit sent ++ [entry]) = newest limit (sent ++ [entry]) := by
  have hsplit : newest limit sent ++ [entry] =
      (sent ++ [entry]).drop (sent.length - max 1 limit) :=
    (List.drop_append_of_le_length (by omega)).symm
  unfold newest at hsplit ⊢
  rw [hsplit, List.drop_drop]
  congr 1
  simp only [List.length_drop, List.length_append, List.length_singleton]
  omega

/-- What is kept, and all that went to the drains, after calls in any number. -/
def recordAll (limit : Nat) (calls : List InvocationLogs) :
    List RuntimeLogEntry × List RuntimeLogEntry :=
  calls.foldl (fun logs input =>
    let recorded := recordInvocationLogs limit logs.1 input
    (recorded.1, logs.2 ++ recorded.2)) ([], [])

/-- What is kept are the newest entries of all that went to the drains, in order. -/
theorem recordAll_newest (limit : Nat) (calls : List InvocationLogs) :
    (recordAll limit calls).1 = newest limit (recordAll limit calls).2 := by
  refine List.foldlRecOn (motive := fun t : List RuntimeLogEntry × List RuntimeLogEntry =>
    t.1 = newest limit t.2) calls _ (by simp [newest]) fun logs hlogs input _ => ?_
  refine List.foldlRecOn (motive := fun t : List RuntimeLogEntry × List RuntimeLogEntry =>
    t.1 = newest limit (logs.2 ++ t.2)) _ _ (by simpa using hlogs) fun t ht line _ => ?_
  unfold recordLine
  split
  · exact ht
  · rw [← List.append_assoc, ← newest_snoc, ← ht]
    rfl

end Odenctl.Runtime.LogRedaction
