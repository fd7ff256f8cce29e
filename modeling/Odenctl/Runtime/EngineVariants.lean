import Odenctl.ControlPlane.DeploymentContracts
import Odenctl.Runtime.ArtifactStore

/-! # The names of precompiled files

    A node compiles components for its engine.  The name of a compiled file says
    for which variant of the engine it is (`createWasip3HostBackend`,
    `runtime/wasip3-host.ts`), and a file is told to be of another variant by
    its name only (`precompiledCacheNameMatchesEngineVariant`,
    `runtime/cache-retention.ts`). -/

namespace Odenctl.Runtime.EngineVariants

open Odenctl.ControlPlane.Catalog (isDigest isDigest_iff isHexChar isHexChar_ascii isSha256Hex)
open Odenctl.Runtime.ArtifactStore (isNameChar replaceNameChar)

/-! ### Names -/

def safePathFragment (value : String) : List Char := value.toList.flatMap replaceNameChar

/-- `slice(0, 64)` of ASCII characters. -/
def digestFragment (digest : String) : List Char :=
  let value := if JsText.startsWith digest "sha256:" then String.ofList (digest.toList.drop 7)
    else digest
  (safePathFragment value).take 64

/-- What a variant adds to a name; the empty one is none. -/
def variantSuffix : Option String → List Char
  | none => []
  | some variant => if variant = "" then [] else '-' :: safePathFragment variant

def cwasm : List Char := ".cwasm".toList

def precompiledName (deploymentId digest : String) (cacheVariant : Option String) : String :=
  String.ofList (safePathFragment deploymentId ++ '-' :: digestFragment digest ++
    variantSuffix cacheVariant ++ cwasm)

/-- What the runtime has compiled: snapshots with other ids and digests are refused. -/
structure Compilation where
  deploymentId : String
  digest : String
  named : deploymentId ≠ ""
  digested : isDigest digest = true

def isLineTerminator (c : Char) : Bool :=
  c == '\n' || c == '\r' || c.toNat == 0x2028 || c.toNat == 0x2029

/-- `.+`, and then what `rest` matches to the end. -/
def someThen (rest : List Char → Bool) : List Char → Bool
  | [] => false
  | c :: cs => !isLineTerminator c && (rest cs || someThen rest cs)

/-- `-[a-fA-F0-9]{64}`, and then the suffix to the end. -/
def digestThen (suffix : List Char) : List Char → Bool
  | [] => false
  | c :: cs => c == '-' && isSha256Hex (cs.take 64) && cs.drop 64 == suffix

/-- Of what a fragment has, only the point means something else in a pattern, and it is escaped. -/
def precompiledCacheNameMatchesEngineVariant (name : String)
    (currentEngineVariant : Option String) : Bool :=
  someThen (digestThen (variantSuffix currentEngineVariant ++ cwasm)) name.toList

structure Sha256 where
  hex : String → String
  digits : ∀ text, isSha256Hex (hex text).toList = true

/-- What is hashed are the version and the arguments of the host. -/
def engineCacheVariant (sha256 : Sha256) (args : List String) : String :=
  "engine-" ++ String.ofList ((sha256.hex ("\x00".intercalate args)).toList.take 16)

/-! ### Names that match -/

def NamedFor (variant : Option String) (name : String) : Prop :=
  ∃ deployment digest, deployment ≠ [] ∧ (∀ c ∈ deployment, isLineTerminator c = false) ∧
    isSha256Hex digest = true ∧
    name.toList = deployment ++ '-' :: digest ++ variantSuffix variant ++ cwasm

theorem someThen_iff {rest : List Char → Bool} {cs : List Char} : someThen rest cs = true ↔
    ∃ first last, first ≠ [] ∧ (∀ c ∈ first, isLineTerminator c = false) ∧
      cs = first ++ last ∧ rest last = true := by
  induction cs with
  | nil => simp [someThen]
  | cons c cs ih =>
    simp only [someThen, Bool.and_eq_true, Bool.not_eq_true', Bool.or_eq_true, ih]
    constructor
    · rintro ⟨hc, hrest | ⟨first, last, -, hfirst, rfl, hlast⟩⟩
      · exact ⟨[c], cs, by simp, by simp [hc], rfl, hrest⟩
      · exact ⟨c :: first, last, by simp, by simpa [hc] using hfirst, rfl, hlast⟩
    · rintro ⟨first, last, hne, hfirst, hcs, hlast⟩
      cases first with
      | nil => exact absurd rfl hne
      | cons d first =>
        obtain ⟨rfl, rfl⟩ := List.cons.inj hcs
        rw [List.forall_mem_cons] at hfirst
        refine ⟨hfirst.1, ?_⟩
        by_cases hnil : first = []
        · exact .inl (by simpa [hnil] using hlast)
        · exact .inr ⟨first, last, hnil, hfirst.2, rfl, hlast⟩

theorem isSha256Hex_length {digest : List Char} (h : isSha256Hex digest = true) :
    digest.length = 64 := by
  unfold isSha256Hex at h
  rw [Bool.and_eq_true, decide_eq_true_eq] at h
  exact h.1

theorem digestThen_iff {suffix cs : List Char} : digestThen suffix cs = true ↔
    ∃ digest, isSha256Hex digest = true ∧ cs = '-' :: digest ++ suffix := by
  cases cs with
  | nil => simp [digestThen]
  | cons c cs =>
    simp only [digestThen, Bool.and_eq_true, beq_iff_eq]
    constructor
    · rintro ⟨⟨rfl, hdigest⟩, hsuffix⟩
      refine ⟨cs.take 64, hdigest, ?_⟩
      rw [← hsuffix, List.cons_append, List.take_append_drop]
    · rintro ⟨digest, hdigest, hcs⟩
      obtain ⟨rfl, rfl⟩ := List.cons.inj hcs
      have hlength := isSha256Hex_length hdigest
      simp [← hlength, hdigest]

theorem precompiledCacheNameMatchesEngineVariant_iff {name : String} {variant : Option String} :
    precompiledCacheNameMatchesEngineVariant name variant = true ↔ NamedFor variant name := by
  unfold precompiledCacheNameMatchesEngineVariant NamedFor
  rw [someThen_iff]
  constructor
  · rintro ⟨first, last, hne, hfirst, hname, hlast⟩
    obtain ⟨digest, hdigest, rfl⟩ := digestThen_iff.mp hlast
    exact ⟨first, digest, hne, hfirst, hdigest, by simpa using hname⟩
  · rintro ⟨deployment, digest, hne, hfirst, hdigest, hname⟩
    have hlast : digestThen (variantSuffix variant ++ cwasm)
        ('-' :: digest ++ (variantSuffix variant ++ cwasm)) = true :=
      digestThen_iff.mpr ⟨digest, hdigest, rfl⟩
    exact ⟨deployment, _, hne, hfirst, by simpa using hname, hlast⟩

/-! ### Names that are written -/

theorem flatMap_nameChars {cs : List Char} (h : ∀ c ∈ cs, isNameChar c = true) :
    cs.flatMap replaceNameChar = cs := by
  induction cs with
  | nil => rfl
  | cons c cs ih =>
    rw [List.forall_mem_cons] at h
    rw [List.flatMap_cons, ih h.2, replaceNameChar, if_pos h.1, List.singleton_append]

theorem isNameChar_of_mem_safePathFragment {value : String} {c : Char}
    (h : c ∈ safePathFragment value) : isNameChar c = true := by
  obtain ⟨d, -, hc⟩ := List.mem_flatMap.mp h
  unfold replaceNameChar at hc
  split at hc
  · next hd => rwa [List.mem_singleton.mp hc]
  · have hunderscore : c = '_' := by
      split at hc
      · simpa using hc
      · simpa using hc
    rw [hunderscore]
    decide

theorem isLineTerminator_of_isNameChar {c : Char} (h : isNameChar c = true) :
    isLineTerminator c = false := by
  have hascii : ∀ d : Char, isLineTerminator d = true → isNameChar d = false := by
    intro d hd
    simp only [isLineTerminator, Bool.or_eq_true, beq_iff_eq] at hd
    rcases hd with ((rfl | rfl) | hcode) | hcode
    · decide
    · decide
    · rw [← Char.ofNat_toNat d, hcode]
      decide
    · rw [← Char.ofNat_toNat d, hcode]
      decide
  by_contra hline
  rw [Bool.not_eq_false] at hline
  simp [hascii c hline] at h

theorem isNameChar_of_isHexChar {c : Char} (h : isHexChar c = true) : isNameChar c = true := by
  have hascii := isHexChar_ascii h
  revert h
  refine JsText.of_ascii hascii ?_
  decide

theorem safePathFragment_ne_nil {value : String} (h : value ≠ "") :
    safePathFragment value ≠ [] := by
  unfold safePathFragment
  cases hchars : value.toList with
  | nil => exact absurd (String.toList_eq_nil_iff.mp hchars) h
  | cons c cs =>
    unfold replaceNameChar
    rw [List.flatMap_cons]
    split
    · simp
    · split <;> simp

theorem isSha256Hex_digestFragment {digest : String} (h : isDigest digest = true) :
    isSha256Hex (digestFragment digest) = true := by
  obtain ⟨hex, htext, hlength, hhex⟩ := isDigest_iff.mp h
  have hscheme : JsText.startsWith digest "sha256:" = true := by
    simp [JsText.startsWith, htext]
  have hnames : ∀ c ∈ hex, isNameChar c = true := fun c hc => isNameChar_of_isHexChar (hhex c hc)
  have hdrop : digest.toList.drop 7 = hex := by simp [htext]
  have hfragment : digestFragment digest = hex := by
    unfold digestFragment safePathFragment
    simp only [hscheme, if_true, hdrop, String.toList_ofList, flatMap_nameChars hnames]
    rw [← hlength, List.take_length]
  rw [hfragment]
  simpa [isSha256Hex, hlength] using hhex

theorem NamedFor.precompiledName (compiled : Compilation) (variant : Option String) :
    NamedFor variant (precompiledName compiled.deploymentId compiled.digest variant) := by
  refine ⟨safePathFragment compiled.deploymentId, digestFragment compiled.digest,
    safePathFragment_ne_nil compiled.named, ?_, isSha256Hex_digestFragment compiled.digested,
    String.toList_ofList⟩
  intro c hc
  exact isLineTerminator_of_isNameChar (isNameChar_of_mem_safePathFragment hc)

/-! ### The variants of a runtime -/

def IsVariant (sha256 : Sha256) (variant : Option String) : Prop :=
  ∀ text ∈ variant, ∃ args, text = engineCacheVariant sha256 args

section variants
variable {sha256 : Sha256} {v w : Option String}

theorem engineCacheVariant_toList (sha256 : Sha256) (args : List String) :
    (engineCacheVariant sha256 args).toList = "engine-".toList ++
      (sha256.hex ("\x00".intercalate args)).toList.take 16 := by
  rw [engineCacheVariant, String.toList_append]
  exact congrArg _ String.toList_ofList

theorem variantSuffix_engine (args : List String) :
    variantSuffix (some (engineCacheVariant sha256 args)) =
      '-' :: (engineCacheVariant sha256 args).toList := by
  have hne : engineCacheVariant sha256 args ≠ "" := by
    intro hempty
    have hlist := engineCacheVariant_toList sha256 args
    simp [hempty] at hlist
  have hnames : ∀ c ∈ (engineCacheVariant sha256 args).toList, isNameChar c = true := by
    intro c hc
    rw [engineCacheVariant_toList, List.mem_append] at hc
    rcases hc with hengine | hdigit
    · have hall : "engine-".toList.all isNameChar = true := by decide
      exact List.all_eq_true.mp hall c hengine
    · have hall := sha256.digits ("\x00".intercalate args)
      unfold isSha256Hex at hall
      rw [Bool.and_eq_true, List.all_eq_true] at hall
      exact isNameChar_of_isHexChar (hall.2 c (List.mem_of_mem_take hdigit))
  simp only [variantSuffix, if_neg hne, safePathFragment]
  rw [flatMap_nameChars hnames]

theorem length_variantSuffix_engine (args : List String) :
    (variantSuffix (some (engineCacheVariant sha256 args))).length = 24 := by
  have hlength := isSha256Hex_length (sha256.digits ("\x00".intercalate args))
  rw [variantSuffix_engine, engineCacheVariant_toList, List.length_cons, List.length_append,
    List.length_take, hlength]
  rfl

theorem variantSuffix_injective (hv : IsVariant sha256 v) (hw : IsVariant sha256 w)
    (h : variantSuffix v = variantSuffix w) : v = w := by
  cases v with
  | none =>
    cases w with
    | none => rfl
    | some text =>
      obtain ⟨args, rfl⟩ := hw text rfl
      rw [variantSuffix_engine] at h
      cases h
  | some text =>
    obtain ⟨args, rfl⟩ := hv text rfl
    cases w with
    | none =>
      rw [variantSuffix_engine] at h
      cases h
    | some text =>
      obtain ⟨args', rfl⟩ := hw text rfl
      rw [variantSuffix_engine, variantSuffix_engine, List.cons.injEq] at h
      rw [String.toList_inj.mp h.2]

theorem digest_append_ne {digest : List Char} (hdigest : isSha256Hex digest = true)
    (sha256 : Sha256) (args : List String) (first last : List Char) :
    first ++ digest ≠ last ++ variantSuffix (some (engineCacheVariant sha256 args)) := by
  intro heq
  have hlength : (variantSuffix (some (engineCacheVariant sha256 args))).length ≤
      digest.length := by
    rw [length_variantSuffix_engine, isSha256Hex_length hdigest]
    decide
  have hsuffix := List.suffix_of_suffix_length_le (List.suffix_append last _)
    (heq ▸ List.suffix_append first digest) hlength
  have hmem : '-' ∈ digest := hsuffix.mem (by rw [variantSuffix_engine]; exact List.mem_cons_self)
  unfold isSha256Hex at hdigest
  rw [Bool.and_eq_true, List.all_eq_true] at hdigest
  exact absurd (hdigest.2 '-' hmem) (by decide)

theorem namedFor_precompiledName (compiled : Compilation) (hv : IsVariant sha256 v)
    (hw : IsVariant sha256 w) :
    NamedFor v (precompiledName compiled.deploymentId compiled.digest w) ↔ v = w := by
  constructor
  · rintro ⟨deployment, other, -, -, hother, hname⟩
    have hown := isSha256Hex_digestFragment compiled.digested
    rw [precompiledName, String.toList_ofList, List.append_cancel_right_eq] at hname
    apply variantSuffix_injective hv hw
    cases v with
    | none =>
      cases w with
      | none => rfl
      | some text =>
        obtain ⟨args, rfl⟩ := hw text rfl
        -- the digest of the pattern would end with the suffix of the name
        refine absurd ?_ (digest_append_ne hother sha256 args (deployment ++ ['-'])
          (safePathFragment compiled.deploymentId ++ '-' :: digestFragment compiled.digest))
        simpa [variantSuffix] using hname.symm
    | some text =>
      obtain ⟨args, rfl⟩ := hv text rfl
      cases w with
      | none =>
        refine absurd ?_ (digest_append_ne hown sha256 args
          (safePathFragment compiled.deploymentId ++ ['-']) (deployment ++ '-' :: other))
        simpa [variantSuffix] using hname
      | some text =>
        obtain ⟨args', rfl⟩ := hw text rfl
        -- suffixes of one length at the end of one text
        refine (List.append_inj_right' hname ?_).symm
        rw [length_variantSuffix_engine, length_variantSuffix_engine]
  · rintro rfl
    exact .precompiledName compiled v

end variants

end Odenctl.Runtime.EngineVariants
