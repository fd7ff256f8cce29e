import Odenctl.Framework.Inodes
import Odenctl.Framework.Machine
import Odenctl.Framework.Slots

/-! # The artifact store of a runtime

    `createRuntimeArtifactStore` (`runtime/artifacts.ts`) with digests verified.
    A remote artifact is fetched, checked, written to a temporary file and
    renamed to its place in the cache; what is there already is checked and
    used.  A label is one operation of the file system, or one event of the
    network, for one call of `materialize`; a file is read and written in
    pieces of any size.

    The cache directory is normalised.  Requests and manifests of remote
    locations are part of the network. -/

namespace Odenctl.Runtime.ArtifactStore

open Slots

open Inodes (Files)

/-! ### Names -/

abbrev Bytes := List UInt8

/-- What is used of a parsed URL. -/
structure Url where
  protocol : String
  filePath : Except String String

def isHexDigit (c : Char) : Bool := c.isDigit || ('a' ≤ c && c ≤ 'f')

/-- What the store has from elsewhere. -/
structure Platform where
  parseUrl : String → Option Url
  sha256Hex : Bytes → String
  sha256Hex_digits : ∀ bytes, (sha256Hex bytes).toList.all isHexDigit = true

structure Options where
  cacheDir : String
  pid : Nat

structure ArtifactReference where
  id : String
  digest : String
  location : String
  deriving DecidableEq

structure MaterializedArtifact where
  path : String
  digest : String
  location : String
  verified : Bool
  deriving DecidableEq

def sha256Digest (p : Platform) (bytes : Bytes) : String := "sha256:" ++ p.sha256Hex bytes

/-- `text.replace(":", "-")`: the first one only. -/
def replaceColon : List Char → List Char
  | [] => []
  | c :: cs => if c = ':' then '-' :: cs else c :: replaceColon cs

/-- `[a-zA-Z0-9_.-]`. -/
def isNameChar (c : Char) : Bool := c.isAlphanum || c == '_' || c == '.' || c == '-'

/-- Characters outside of the plane of UTF-16 count as two. -/
def replaceNameChar (c : Char) : List Char :=
  if isNameChar c then [c] else if c.toNat < 0x10000 then ['_'] else ['_', '_']

def artifactCacheName (digest : String) : String :=
  String.ofList ((replaceColon digest.toList).flatMap replaceNameChar)

def cachePath (o : Options) (digest : String) : String :=
  o.cacheDir ++ "/" ++ artifactCacheName digest

def tmpPath (o : Options) (path : String) (now : Nat) : String :=
  path ++ ".tmp-" ++ toString o.pid ++ "-" ++ toString now

/-! ### Calls -/

/-- Where the bytes come from that did not have the digest. -/
inductive Origin where
  | file
  | cache
  | remote
  deriving DecidableEq

inductive Failure where
  | location (message : String)
  | mismatch (origin : Origin) (actual : String)
  /-- The file to be read is not there. -/
  | missing (origin : Origin)
  | fetch (message : String)
  /-- The temporary file to be renamed is not there. -/
  | tmpMissing
  /-- The operating system refuses. -/
  | system (message : String)
  deriving DecidableEq

/-- Where a call of `materialize` stands. -/
inductive Phase where
  /-- It makes the cache directory. -/
  | making
  /-- It asks whether its file is in the cache. -/
  | probing
  /-- It opens a file to read and check it. -/
  | opening (path : String) (origin : Origin)
  /-- It has read the beginning of a file. -/
  | reading (path : String) (origin : Origin) (inode : Nat) (got : Bytes)
  | fetching
  /-- It opens its temporary file. -/
  | creating (tmp : String) (bytes : Bytes)
  /-- It has written `bytes` up to a position. -/
  | writing (tmp : String) (bytes : Bytes) (inode position : Nat)
  /-- It renames its temporary file. -/
  | placing (tmp : String)
  /-- It removes its temporary file, before it fails. -/
  | removing (tmp : String) (failure : Failure)
  | done (result : Except Failure MaterializedArtifact)
  deriving DecidableEq

structure Call where
  artifact : ArtifactReference
  phase : Phase
  deriving DecidableEq

structure State where
  files : Files String UInt8
  calls : List Call

inductive Label where
  | materialize (artifact : ArtifactReference)
  | mkdir (call : Nat) (fault : Option String)
  /-- `access`, which may be refused. -/
  | access (call : Nat) (fault : Bool)
  | openRead (call : Nat) (fault : Option String)
  /-- `size + 1` bytes are read at most. -/
  | read (call size : Nat) (fault : Option String)
  /-- The network answers, and then the clock is read. -/
  | fetch (call : Nat) (result : Except String Bytes) (now : Nat)
  | create (call : Nat) (fault : Option String)
  /-- `size + 1` bytes are written at most. -/
  | write (call size : Nat) (fault : Option String)
  | rename (call : Nat) (fault : Option String)
  | unlink (call : Nat) (fault : Bool)

section source
variable (p : Platform) (o : Options)

/-- `materialize` up to its first `await`. -/
def begin (artifact : ArtifactReference) : Phase :=
  match p.parseUrl artifact.location with
  | none => .done (.error (.location s!"invalid artifact location {artifact.location}"))
  | some url =>
    if url.protocol = "file:" then
      match url.filePath with
      | .error message => .done (.error (.location message))
      | .ok path => .opening path .file
    else if url.protocol ∈ ["http:", "https:", "s3:", "oci:"] then .making
    else .done (.error (.location s!"unsupported artifact location {artifact.location}"))

def materialized (artifact : ArtifactReference) (path : String) : MaterializedArtifact :=
  ⟨path, artifact.digest, artifact.location, true⟩

/-- A file has been read. -/
def verify (artifact : ArtifactReference) (path : String) (origin : Origin) (bytes : Bytes) :
    Phase :=
  if sha256Digest p bytes = artifact.digest then .done (.ok (materialized artifact path))
  else .done (.error (.mismatch origin (sha256Digest p bytes)))

/-- The network has answered. -/
def receive (artifact : ArtifactReference) (now : Nat) : Except String Bytes → Phase
  | .error message => .done (.error (.fetch message))
  | .ok bytes =>
    if sha256Digest p bytes = artifact.digest then
      .creating (tmpPath o (cachePath o artifact.digest) now) bytes
    else .done (.error (.mismatch .remote (sha256Digest p bytes)))

def move (files : Files String UInt8) (artifact : ArtifactReference) :
    Phase → Label → Option (Files String UInt8 × Phase)
  | .making, .mkdir _ fault =>
    some (files, fault.elim .probing fun message => .done (.error (.system message)))
  | .probing, .access _ fault =>
    let path := cachePath o artifact.digest
    -- `exists` takes a refusal for a file that is not there
    some (files, if (files.inode path).isSome && !fault then .opening path .cache else .fetching)
  | .opening path origin, .openRead _ fault =>
    some (files, match fault, files.inode path with
      | some message, _ => .done (.error (.system message))
      | none, none => .done (.error (.missing origin))
      | none, some inode => .reading path origin inode [])
  | .reading path origin inode got, .read _ size fault =>
    some (files, match fault with
      | some message => .done (.error (.system message))
      | none =>
        -- the file that was opened, whatever its name is bound to now
        match ((files.content inode).drop got.length).take (size + 1) with
        | [] => verify p artifact path origin got
        | chunk => .reading path origin inode (got ++ chunk))
  | .fetching, .fetch _ result now => some (files, receive p o artifact now result)
  | .creating tmp bytes, .create _ fault =>
    match fault with
    | some message => some (files, .removing tmp (.system message))
    | none =>
      -- a file that is there already is emptied
      let (inode, files) := files.openWrite tmp
      some (files, .writing tmp bytes inode 0)
  | .writing tmp bytes inode position, .write _ size fault =>
    match fault with
    | some message => some (files, .removing tmp (.system message))
    | none =>
      if position < bytes.length then
        let chunk := (bytes.drop position).take (size + 1)
        some (files.write inode position chunk,
          .writing tmp bytes inode (position + chunk.length))
      else some (files, .placing tmp)
  | .placing tmp, .rename _ fault =>
    let path := cachePath o artifact.digest
    match fault, files.rename tmp path with
    | some message, _ => some (files, .removing tmp (.system message))
    | none, none => some (files, .removing tmp .tmpMissing)
    | none, some files => some (files, .done (.ok (materialized artifact path)))
  | .removing tmp failure, .unlink _ fault =>
    -- the failure from before is the one that is thrown
    some (if fault then files else files.unlink tmp, .done (.error failure))
  | _, _ => none

def Label.call? : Label → Option Nat
  | .materialize _ => none
  | .mkdir i _ | .access i _ | .openRead i _ | .read i _ _ | .fetch i _ _ | .create i _
  | .write i _ _ | .rename i _ | .unlink i _ => some i

def next (s : State) (l : Label) : Option State :=
  match l with
  | .materialize artifact =>
    some { s with calls := s.calls ++ [⟨artifact, begin p artifact⟩] }
  | l =>
    l.call?.bind fun i => s.calls[i]?.bind fun c =>
      (move p o s.files c.artifact c.phase l).map fun (files, phase) =>
        ⟨files, s.calls.set i { c with phase }⟩

end source

/-! ### Promises -/

section promises
variable (p : Platform) (o : Options)

def Clean (files : Files String UInt8) : Prop :=
  ∀ bytes text, files.read (cachePath o (sha256Digest p bytes)) = some text →
    sha256Digest p text = sha256Digest p bytes

/-- A store over a cache that is clean. -/
def machine : LTS.Machine State Label where
  init s := s.calls = [] ∧ s.files.WellFormed ∧ Clean p o s.files
  next := next p o

def Temporary (path : String) : Prop :=
  ∃ bytes now, path = tmpPath o (cachePath o (sha256Digest p bytes)) now

def Served (files : Files String UInt8) (path digest : String) : Prop :=
  ∃ text, files.read path = some text ∧ sha256Digest p text = digest

/-- A call has failed for a reason that is not another call of its digest. -/
def Failure.Own (digest : String) : Failure → Prop
  | .tmpMissing => False
  | .missing .cache | .mismatch .cache _ => ∀ bytes, sha256Digest p bytes ≠ digest
  | _ => True

/-- What the calls since `s₀` promise in `s`. -/
structure Sound (s₀ s : State) : Prop where
  /-- A call that fulfilled has returned a file with its digest. -/
  fulfilled : ∀ c ∈ s.calls, ∀ m, c.phase = .done (.ok m) →
    m.digest = c.artifact.digest ∧ Served p s.files m.path c.artifact.digest
  clean : Clean p o s.files
  /-- A file in the cache was there, or a call that fulfilled has put it there. -/
  placed : ∀ bytes, (s.files.inode (cachePath o (sha256Digest p bytes))).isSome →
    (s₀.files.inode (cachePath o (sha256Digest p bytes))).isSome ∨
      ∃ c ∈ s.calls, ∃ m, c.phase = .done (.ok m) ∧ c.artifact.digest = sha256Digest p bytes
  own : ∀ c ∈ s.calls, ∀ failure, c.phase = .done (.error failure) →
    failure.Own p c.artifact.digest

def Phase.holds (tmp : String) : Phase → Bool
  | .writing t _ _ _ | .placing t | .removing t _ => t == tmp
  | _ => false

/-- No call opens a temporary file that another call still has, and no call reads
    a temporary file in place of an artifact. -/
def Apart (s : State) : Label → Prop
  | .create i _ => ∀ c tmp bytes, s.calls[i]? = some c → c.phase = .creating tmp bytes →
      ∀ d ∈ s.calls, d.phase.holds tmp = false
  | .materialize artifact => ∀ path, begin p artifact = .opening path .file → ¬ Temporary p o path
  | _ => True

end promises

/-! ### Paths -/

section paths
variable {p : Platform} {o : Options}

theorem replaceColon_hex {cs : List Char} :
    replaceColon ("sha256:".toList ++ cs) = "sha256-".toList ++ cs := by
  simp [replaceColon]

theorem replaceNameChar_hex {cs : List Char} (h : cs.all isHexDigit = true) :
    cs.flatMap replaceNameChar = cs := by
  induction cs with
  | nil => rfl
  | cons c cs ih =>
    simp only [List.all_cons, Bool.and_eq_true] at h
    have hname : isNameChar c = true := by
      rcases Bool.or_eq_true _ _ |>.mp h.1 with hdigit | hletter
      · have halphanum : c.isAlphanum = true := Bool.or_eq_true _ _ |>.mpr (.inr hdigit)
        simp [isNameChar, halphanum]
      · simp only [Bool.and_eq_true, decide_eq_true_eq] at hletter
        have hlower : c.isLower = true := by
          unfold Char.isLower
          exact Bool.and_eq_true _ _ |>.mpr ⟨decide_eq_true hletter.1,
            decide_eq_true (UInt32.le_trans hletter.2 (show 'f'.val ≤ 'z'.val by decide))⟩
        have halpha : c.isAlpha = true := Bool.or_eq_true _ _ |>.mpr (.inr hlower)
        have halphanum : c.isAlphanum = true := Bool.or_eq_true _ _ |>.mpr (.inl halpha)
        simp [isNameChar, halphanum]
    rw [List.flatMap_cons, ih h.2, replaceNameChar, if_pos hname]
    rfl

theorem cachePath_digest (bytes : Bytes) :
    (cachePath o (sha256Digest p bytes)).toList =
      o.cacheDir.toList ++ "/sha256-".toList ++ (p.sha256Hex bytes).toList := by
  have hname : (artifactCacheName (sha256Digest p bytes)).toList =
      "sha256-".toList ++ (p.sha256Hex bytes).toList := by
    have hprefix : "sha256-".toList.flatMap replaceNameChar = "sha256-".toList := by decide
    rw [artifactCacheName, String.toList_ofList, sha256Digest, String.toList_append,
      replaceColon_hex, List.flatMap_append, hprefix,
      replaceNameChar_hex (p.sha256Hex_digits bytes)]
  rw [cachePath, String.toList_append, String.toList_append, hname]
  simp

theorem cachePath_injective {b b' : Bytes}
    (h : cachePath o (sha256Digest p b) = cachePath o (sha256Digest p b')) :
    sha256Digest p b = sha256Digest p b' := by
  have hlist := congrArg String.toList h
  rw [cachePath_digest, cachePath_digest] at hlist
  rw [sha256Digest, sha256Digest, String.toList_injective (List.append_cancel_left hlist)]

/-- A temporary file is not one of the cache: its name has a dot. -/
theorem not_temporary (bytes : Bytes) : ¬ Temporary p o (cachePath o (sha256Digest p bytes)) := by
  rintro ⟨bytes', now, h⟩
  have hlist := congrArg String.toList h
  rw [tmpPath, String.toList_append, String.toList_append, String.toList_append,
    String.toList_append, cachePath_digest, cachePath_digest] at hlist
  simp only [List.append_assoc] at hlist
  have hhex := List.append_cancel_left (List.append_cancel_left hlist)
  have hdot : '.' ∈ (p.sha256Hex bytes).toList := by
    rw [hhex]
    simp
  have hdigit := List.all_eq_true.mp (p.sha256Hex_digits bytes) '.' hdot
  exact absurd hdigit (by decide)

end paths

/-! ### Changes of the files -/

section changes
variable {p : Platform} {o : Options} {fs fs' : Files String UInt8} {tmp : String}

/-- What a call may do to the files that has the temporary file `tmp`. -/
structure Change (p : Platform) (o : Options) (tmp : String) (fs fs' : Files String UInt8) :
    Prop where
  wellFormed : fs'.WellFormed
  clean : Clean p o fs'
  fresh : fs.fresh ≤ fs'.fresh
  others : ∀ t, Temporary p o t → t ≠ tmp → fs'.inode t = fs.inode t
  content : ∀ n < fs.fresh, fs.inode tmp ≠ some n → fs'.content n = fs.content n
  unnamed : ∀ n < fs.fresh, (∀ t, Temporary p o t → fs.inode t ≠ some n) →
    ∀ t, Temporary p o t → fs'.inode t ≠ some n
  served : ∀ path digest, ¬ Temporary p o path → Served p fs path digest →
    Served p fs' path digest

theorem Served.of_read {path digest : String} (h : Served p fs path digest)
    (hread : fs'.read path = fs.read path) : Served p fs' path digest := by
  obtain ⟨text, htext, hdigest⟩ := h
  exact ⟨text, hread.trans htext, hdigest⟩

theorem read_other (hfs : fs.WellFormed) {path : String} (hpath : path ≠ tmp)
    (hinode : fs'.inode path = fs.inode path)
    (hcontent : ∀ n < fs.fresh, fs.inode tmp ≠ some n → fs'.content n = fs.content n) :
    fs'.read path = fs.read path := by
  unfold Files.read
  rw [hinode]
  cases hn : fs.inode path with
  | none => rfl
  | some n =>
    have htmp : fs.inode tmp ≠ some n := fun h => hpath (hfs.single path tmp n hn h)
    exact congrArg some (hcontent n (hfs.bound path n hn) htmp)

theorem change_of_tmp (hfs : fs.WellFormed) (hclean : Clean p o fs) (htmp : Temporary p o tmp)
    (hwf : fs'.WellFormed) (hfresh : fs.fresh ≤ fs'.fresh)
    (hinode : ∀ q, q ≠ tmp → fs'.inode q = fs.inode q)
    (hbinds : ∀ n, fs'.inode tmp = some n → fs.inode tmp = some n ∨ fs.fresh ≤ n)
    (hcontent : ∀ n < fs.fresh, fs.inode tmp ≠ some n → fs'.content n = fs.content n) :
    Change p o tmp fs fs' := by
  have hread {path : String} (hpath : ¬ Temporary p o path) : fs'.read path = fs.read path := by
    have hne : path ≠ tmp := fun h => hpath (h ▸ htmp)
    exact read_other hfs hne (hinode path hne) hcontent
  refine ⟨hwf, ?_, hfresh, fun t _ ht => hinode t ht, hcontent, ?_, ?_⟩
  · intro bytes text htext
    rw [hread (not_temporary bytes)] at htext
    exact hclean bytes text htext
  · intro n hn hfree t ht hbound
    by_cases htt : t = tmp
    · subst htt
      rcases hbinds n hbound with hold | hle
      · exact hfree t ht hold
      · omega
    · rw [hinode t htt] at hbound
      exact hfree t ht hbound
  · intro path digest hpath hserved
    exact hserved.of_read (hread hpath)

theorem change_openWrite (hfs : fs.WellFormed) (hclean : Clean p o fs) (htmp : Temporary p o tmp)
    {n : Nat} (h : fs.openWrite tmp = (n, fs')) : Change p o tmp fs fs' := by
  refine change_of_tmp hfs hclean htmp (hfs.openWrite h) (Files.openWrite_fresh h)
    (fun q hq => Files.openWrite_inode_other h hq) ?_
    fun m hm hne => Files.openWrite_content_other h hm hne
  intro m hm
  rw [Files.openWrite_inode h, Option.some.injEq] at hm
  exact hm ▸ (Files.openWrite_cases h).imp_right fun heq => Nat.le_of_eq heq.symm

theorem change_write (hfs : fs.WellFormed) (hclean : Clean p o fs) (htmp : Temporary p o tmp)
    {n : Nat} (hn : fs.inode tmp = some n) (position : Nat) (chunk : Bytes) :
    Change p o tmp fs (fs.write n position chunk) := by
  refine change_of_tmp hfs hclean htmp (hfs.write position chunk) (Nat.le_refl _) (fun _ _ => rfl)
    (fun m hm => .inl hm) fun m _ hne => Files.write_content_other ?_
  rintro rfl
  exact hne hn

theorem change_unlink (hfs : fs.WellFormed) (hclean : Clean p o fs) (htmp : Temporary p o tmp) :
    Change p o tmp fs (fs.unlink tmp) := by
  refine change_of_tmp hfs hclean htmp (hfs.unlink tmp) (Nat.le_refl _)
    (fun q hq => Files.unlink_inode_other hq) (fun n hn => ?_) fun _ _ _ => rfl
  have hnone : (fs.unlink tmp).inode tmp = none := Function.update_self ..
  rw [hnone] at hn
  cases hn

/-- A file with its digest takes its place in the cache. -/
theorem change_rename (hfs : fs.WellFormed) (hclean : Clean p o fs) (htmp : Temporary p o tmp)
    {bytes : Bytes} (hserved : Served p fs tmp (sha256Digest p bytes))
    (h : fs.rename tmp (cachePath o (sha256Digest p bytes)) = some fs') :
    Change p o tmp fs fs' ∧
      Served p fs' (cachePath o (sha256Digest p bytes)) (sha256Digest p bytes) ∧
      ∀ q, q ≠ cachePath o (sha256Digest p bytes) → (fs'.inode q).isSome → (fs.inode q).isSome := by
  have hwf := hfs.rename h
  obtain ⟨n, hn, rfl⟩ := Files.rename_eq_some h
  generalize hplace : cachePath o (sha256Digest p bytes) = place at *
  have hplace_tmp : place ≠ tmp := by
    rintro rfl
    exact not_temporary bytes (hplace ▸ htmp)
  have hself : Function.update (Function.update fs.inode tmp none) place (some n) place = some n :=
    Function.update_self ..
  have hgone : Function.update (Function.update fs.inode tmp none) place (some n) tmp = none := by
    rw [Function.update_of_ne hplace_tmp.symm, Function.update_self]
  have hinode (q : String) (hq : q ≠ place) (hqt : q ≠ tmp) :
      Function.update (Function.update fs.inode tmp none) place (some n) q = fs.inode q := by
    rw [Function.update_of_ne hq, Function.update_of_ne hqt]
  have hdigest : sha256Digest p (fs.content n) = sha256Digest p bytes := by
    obtain ⟨text, htext, hdigest⟩ := hserved
    obtain ⟨m, hm, rfl⟩ := Files.read_eq_some.mp htext
    rw [hn, Option.some.injEq] at hm
    exact hm ▸ hdigest
  have hread (q : String) (hq : q ≠ place) (hqt : q ≠ tmp) :
      ({ fs with inode := Function.update (Function.update fs.inode tmp none) place (some n) } :
        Files String UInt8).read q = fs.read q :=
    congrArg (Option.map fs.content) (hinode q hq hqt)
  have hplaced : Served p
      { fs with inode := Function.update (Function.update fs.inode tmp none) place (some n) }
      place (sha256Digest p bytes) :=
    ⟨fs.content n, congrArg (Option.map fs.content) hself, hdigest⟩
  refine ⟨⟨hwf, ?_, Nat.le_refl _, ?_, fun _ _ _ => rfl, ?_, ?_⟩, hplaced, ?_⟩
  -- the place of another digest is not touched, the own one has the verified bytes
  · intro bytes' text htext
    by_cases hsame : cachePath o (sha256Digest p bytes') = place
    · obtain ⟨text', htext', hdigest'⟩ := hplaced
      rw [hsame, htext', Option.some.injEq] at htext
      rw [← htext, hdigest', cachePath_injective (hplace.trans hsame.symm)]
    · rw [hread _ hsame fun h => not_temporary bytes' (h ▸ htmp)] at htext
      exact hclean bytes' text htext
  · intro t ht hne
    exact hinode t (fun h => not_temporary bytes (hplace ▸ h ▸ ht)) hne
  · intro m _ hfree t ht hbound
    dsimp only at hbound
    by_cases htt : t = tmp
    · subst htt
      rw [hgone] at hbound
      cases hbound
    · rw [hinode t (fun h => not_temporary bytes (hplace ▸ h ▸ ht)) htt] at hbound
      exact hfree t ht hbound
  · intro path digest hpath hserved'
    by_cases hsame : path = place
    · -- what was there had the digest of the place
      obtain ⟨text, htext, hdigest'⟩ := hserved'
      rw [hsame, ← hplace] at htext
      rw [hsame, ← hdigest', hclean bytes text htext]
      exact hplaced
    · exact hserved'.of_read (hread path hsame fun h => hpath (h ▸ htmp))
  · intro q hq hsome
    dsimp only at hsome
    by_cases hqt : q = tmp
    · subst hqt
      rw [hgone] at hsome
      cases hsome
    · rwa [hinode q hq hqt] at hsome

end changes

/-! ### What a call relies on -/

section calls
variable (p : Platform) (o : Options)

/-- A call reads a file that stays as it is, and that is the one its digest needs. -/
structure Reads (files : Files String UInt8) (digest path : String) (origin : Origin)
    (inode : Nat) (got : Bytes) : Prop where
  lasting : ¬ Temporary p o path
  lt_fresh : inode < files.fresh
  unnamed : ∀ t, Temporary p o t → files.inode t ≠ some inode
  beginning : got <+: files.content inode
  served : sha256Digest p (files.content inode) = digest → Served p files path digest
  cached : origin = .cache → sha256Digest p (files.content inode) = digest

/-- What the files have that a call goes on with. -/
def Relies (files : Files String UInt8) (digest : String) : Phase → Prop
  | .making | .probing | .fetching => True
  | .opening path origin => (∃ bytes, sha256Digest p bytes = digest) →
      ¬ Temporary p o path ∧ (origin = .cache → Served p files path digest)
  | .reading path origin inode got => (∃ bytes, sha256Digest p bytes = digest) →
      Reads p o files digest path origin inode got
  | .creating tmp bytes => Temporary p o tmp ∧ sha256Digest p bytes = digest
  | .writing tmp bytes inode position => Temporary p o tmp ∧ sha256Digest p bytes = digest ∧
      files.inode tmp = some inode ∧ files.content inode = bytes.take position ∧
      position ≤ bytes.length
  | .placing tmp => Temporary p o tmp ∧ Served p files tmp digest
  | .removing tmp failure => Temporary p o tmp ∧ failure.Own p digest
  | .done (.ok m) => m.digest = digest ∧ ¬ Temporary p o m.path ∧ Served p files m.path digest
  | .done (.error failure) => failure.Own p digest

end calls

section moves
variable {p : Platform} {o : Options} {fs fs' : Files String UInt8} {tmp digest : String}

variable {phase phase' : Phase} {path t : String} {origin : Origin} {n size : Nat}
  {got bytes : Bytes} {artifact : ArtifactReference}

/-- A call goes on while another one has the temporary file that changes. -/
theorem Relies.change (hfs : fs.WellFormed) (htmp : Temporary p o tmp)
    (hchange : Change p o tmp fs fs') (hfree : phase.holds tmp = false)
    (h : Relies p o fs digest phase) : Relies p o fs' digest phase := by
  cases phase with
  | making | probing | fetching => trivial
  | opening path origin =>
    intro hdigest
    obtain ⟨hpath, hserved⟩ := h hdigest
    exact ⟨hpath, fun ho => hchange.served path digest hpath (hserved ho)⟩
  | reading path origin inode got =>
    intro hdigest
    have hreads := h hdigest
    have hcontent : fs'.content inode = fs.content inode :=
      hchange.content inode hreads.lt_fresh (hreads.unnamed tmp htmp)
    refine ⟨hreads.lasting, Nat.lt_of_lt_of_le hreads.lt_fresh hchange.fresh,
      hchange.unnamed inode hreads.lt_fresh hreads.unnamed, ?_, ?_, ?_⟩
    · rw [hcontent]
      exact hreads.beginning
    · rw [hcontent]
      exact fun heq => hchange.served path digest hreads.lasting (hreads.served heq)
    · rw [hcontent]
      exact hreads.cached
  | creating t bytes => exact h
  | writing t bytes inode position =>
    obtain ⟨ht, hdigest, hinode, hcontent, hle⟩ := h
    -- another name is another file
    have hne : t ≠ tmp := by
      rintro rfl
      simp [Phase.holds] at hfree
    have hother : fs.inode tmp ≠ some inode := fun heq => hne (hfs.single t tmp inode hinode heq)
    refine ⟨ht, hdigest, (hchange.others t ht hne).trans hinode, ?_, hle⟩
    rw [hchange.content inode (hfs.bound t inode hinode) hother]
    exact hcontent
  | placing t =>
    obtain ⟨ht, hserved⟩ := h
    have hne : t ≠ tmp := by
      rintro rfl
      simp [Phase.holds] at hfree
    exact ⟨ht, hserved.of_read (read_other hfs hne (hchange.others t ht hne) hchange.content)⟩
  | removing t failure => exact h
  | done result =>
    cases result with
    | ok m => exact ⟨h.1, h.2.1, hchange.served m.path digest h.2.1 h.2.2⟩
    | error failure => exact h

/-! ### What a step of a call does -/

def Phase.uses (tmp : String) : Phase → Prop
  | .creating t _ => t = tmp
  | phase => phase.holds tmp = true

/-- A step of a call, from files that are well formed and clean. -/
structure Moved (p : Platform) (o : Options) (digest : String) (fs fs' : Files String UInt8)
    (phase phase' : Phase) : Prop where
  relies : Relies p o fs' digest phase'
  changed : fs' = fs ∨ ∃ tmp, Temporary p o tmp ∧ phase.uses tmp ∧ Change p o tmp fs fs'
  placed : ∀ bytes, (fs'.inode (cachePath o (sha256Digest p bytes))).isSome →
    (fs.inode (cachePath o (sha256Digest p bytes))).isSome ∨
      ∃ m, phase' = .done (.ok m) ∧ digest = sha256Digest p bytes

theorem Moved.same (h : Relies p o fs digest phase') :
    Moved p o digest fs fs phase phase' := ⟨h, .inl rfl, fun _ => .inl⟩

theorem Moved.of_tmp (htmp : Temporary p o tmp) (huses : phase.uses tmp)
    (hchange : Change p o tmp fs fs') (hinode : ∀ q, q ≠ tmp → fs'.inode q = fs.inode q)
    (h : Relies p o fs' digest phase') : Moved p o digest fs fs' phase phase' := by
  refine ⟨h, .inr ⟨tmp, htmp, huses, hchange⟩, fun bytes hsome => .inl ?_⟩
  have hne : cachePath o (sha256Digest p bytes) ≠ tmp := fun heq =>
    not_temporary bytes (heq ▸ htmp)
  rwa [hinode _ hne] at hsome

theorem relies_opening (hclean : Clean p o fs)
    (h : (fs.inode (cachePath o digest)).isSome = true) :
    Relies p o fs digest (.opening (cachePath o digest) .cache) := by
  rintro ⟨bytes, rfl⟩
  refine ⟨not_temporary bytes, fun _ => ?_⟩
  obtain ⟨n, hn⟩ := Option.isSome_iff_exists.mp h
  have hread : fs.read (cachePath o (sha256Digest p bytes)) = some (fs.content n) :=
    Files.read_eq_some.mpr ⟨n, hn, rfl⟩
  exact ⟨_, hread, hclean bytes _ hread⟩

theorem own_missing (h : Relies p o fs digest (.opening path origin)) (hnone : fs.inode path = none)
    : (Failure.missing origin).Own p digest := by
  cases origin with
  | file | remote => trivial
  | cache =>
    intro bytes hdigest
    obtain ⟨text, htext, -⟩ := (h ⟨bytes, hdigest⟩).2 rfl
    rw [Files.read, hnone] at htext
    cases htext

theorem relies_opened (hfs : fs.WellFormed) (h : Relies p o fs digest (.opening path origin))
    (hn : fs.inode path = some n) : Relies p o fs digest (.reading path origin n []) := by
  intro hdigest
  obtain ⟨hpath, hcached⟩ := h hdigest
  have hread : fs.read path = some (fs.content n) := Files.read_eq_some.mpr ⟨n, hn, rfl⟩
  refine ⟨hpath, hfs.bound path n hn, fun t ht htn => ?_, List.nil_prefix,
    fun heq => ⟨_, hread, heq⟩, fun ho => ?_⟩
  · exact hpath (hfs.single t path n htn hn ▸ ht)
  · obtain ⟨text, htext, heq⟩ := hcached ho
    rw [hread, Option.some.injEq] at htext
    exact htext ▸ heq

theorem Reads.more (h : Reads p o fs digest path origin n got) (size : Nat) :
    Reads p o fs digest path origin n
      (got ++ ((fs.content n).drop got.length).take (size + 1)) := by
  refine { h with beginning := ?_ }
  obtain ⟨rest, hrest⟩ := h.beginning
  rw [← hrest, List.drop_left]
  exact (List.prefix_append_right_inj got).mpr (List.take_prefix _ _)

theorem Reads.whole (h : Reads p o fs digest path origin n got)
    (hend : ((fs.content n).drop got.length).take (size + 1) = []) : got = fs.content n := by
  obtain ⟨rest, hrest⟩ := h.beginning
  rw [← hrest, List.drop_left] at hend
  have hnil : rest = [] := by
    cases rest with
    | nil => rfl
    | cons b rest => cases hend
  rw [← hrest, hnil, List.append_nil]

theorem relies_verify (h : Relies p o fs artifact.digest (.reading path origin n got))
    (hend : ((fs.content n).drop got.length).take (size + 1) = []) :
    Relies p o fs artifact.digest (verify p artifact path origin got) := by
  unfold verify
  split
  · next hdigest =>
    have hreads := h ⟨got, hdigest⟩
    -- what was read piece by piece is what the file has now
    rw [hreads.whole hend] at hdigest
    exact ⟨rfl, hreads.lasting, hreads.served hdigest⟩
  · next hdigest =>
    cases origin with
    | file | remote => trivial
    | cache =>
      intro bytes hbytes
      have hreads := h ⟨bytes, hbytes⟩
      exact hdigest (hreads.whole hend ▸ hreads.cached rfl)

theorem relies_receive (artifact : ArtifactReference) (now : Nat) (result : Except String Bytes) :
    Relies p o fs artifact.digest (receive p o artifact now result) := by
  cases result with
  | error message => trivial
  | ok bytes =>
    unfold receive
    dsimp only
    split
    · next hdigest => exact ⟨⟨bytes, now, hdigest ▸ rfl⟩, hdigest⟩
    · trivial

theorem moved_create (hfs : fs.WellFormed) (hclean : Clean p o fs)
    (h : Relies p o fs digest (.creating tmp bytes)) (hopen : fs.openWrite tmp = (n, fs')) :
    Moved p o digest fs fs' (.creating tmp bytes) (.writing tmp bytes n 0) :=
  Moved.of_tmp h.1 rfl (change_openWrite hfs hclean h.1 hopen)
    (fun _ hq => Files.openWrite_inode_other hopen hq)
    ⟨h.1, h.2, Files.openWrite_inode hopen, Files.openWrite_content hopen, Nat.zero_le _⟩

theorem moved_write (hfs : fs.WellFormed) (hclean : Clean p o fs) {position : Nat}
    (h : Relies p o fs digest (.writing tmp bytes n position)) (size : Nat) :
    Moved p o digest fs (fs.write n position ((bytes.drop position).take size))
      (.writing tmp bytes n position)
      (.writing tmp bytes n (position + ((bytes.drop position).take size).length)) := by
  obtain ⟨htmp, hdigest, hinode, hcontent, hle⟩ := h
  refine Moved.of_tmp htmp (beq_self_eq_true tmp)
    (change_write hfs hclean htmp hinode position _) (fun _ _ => rfl)
    ⟨htmp, hdigest, hinode, ?_, ?_⟩
  · have hself : (fs.write n position ((bytes.drop position).take size)).content n =
        Files.overwrite (fs.content n) position ((bytes.drop position).take size) :=
      Function.update_self ..
    have hchunk : (bytes.drop position).take size =
        (bytes.drop position).take ((bytes.drop position).take size).length :=
      List.prefix_iff_eq_take.mp (List.take_prefix size _)
    rw [hself, hcontent, Files.overwrite_take bytes size hle, List.take_add, List.take_add,
      ← hchunk]
  · rw [List.length_take, List.length_drop]
    omega

/-- The temporary file takes its place in the cache. -/
theorem moved_rename (hfs : fs.WellFormed) (hclean : Clean p o fs)
    (h : Relies p o fs artifact.digest (.placing tmp))
    (hrename : fs.rename tmp (cachePath o artifact.digest) = some fs') :
    Moved p o artifact.digest fs fs' (.placing tmp)
      (.done (.ok (materialized artifact (cachePath o artifact.digest)))) := by
  obtain ⟨htmp, text, htext, hdigest⟩ := h
  rw [← hdigest] at hrename
  obtain ⟨hchange, hserved, hinode⟩ :=
    change_rename hfs hclean htmp ⟨text, htext, rfl⟩ hrename
  refine ⟨?_, .inr ⟨tmp, htmp, beq_self_eq_true tmp, hchange⟩, fun bytes hsome => ?_⟩
  · rw [← hdigest]
    exact ⟨hdigest.symm, not_temporary text, hserved⟩
  · by_cases heq : cachePath o (sha256Digest p bytes) = cachePath o (sha256Digest p text)
    · exact .inr ⟨_, rfl, hdigest.symm.trans (cachePath_injective heq.symm)⟩
    · exact .inl (hinode _ heq hsome)

theorem moved_unlink (hfs : fs.WellFormed) (hclean : Clean p o fs) {failure : Failure}
    (h : Relies p o fs digest (.removing tmp failure)) :
    Moved p o digest fs (fs.unlink tmp) (.removing tmp failure) (.done (.error failure)) :=
  Moved.of_tmp h.1 (beq_self_eq_true tmp) (change_unlink hfs hclean h.1)
    (fun _ hq => Files.unlink_inode_other hq) h.2

theorem move_spec (hfs : fs.WellFormed) (hclean : Clean p o fs) {l : Label}
    (h : Relies p o fs artifact.digest phase)
    (hmove : move p o fs artifact phase l = some (fs', phase')) :
    Moved p o artifact.digest fs fs' phase phase' := by
  unfold move at hmove
  split at hmove
  · next fault =>
    cases hmove
    cases fault <;> exact .same trivial
  · next fault =>
    cases hmove
    refine .same ?_
    split
    · next hsome => exact relies_opening hclean (Bool.and_eq_true _ _ |>.mp hsome).1
    · trivial
  · next path origin _ fault =>
    cases hmove
    refine .same ?_
    split
    · trivial
    · next hnone => exact own_missing h hnone
    · next n hn => exact relies_opened hfs h hn
  · next path origin n got _ size fault =>
    cases hmove
    refine .same ?_
    split
    · trivial
    · split
      · next hend => exact relies_verify h hend
      · exact fun hdigest => (h hdigest).more size
  · next result now =>
    cases hmove
    exact .same (relies_receive artifact now result)
  · next t bytes _ fault =>
    split at hmove
    · cases hmove
      exact .same ⟨h.1, trivial⟩
    · cases hmove
      exact moved_create hfs hclean h rfl
  · next t bytes n position _ size fault =>
    split at hmove
    · cases hmove
      exact .same ⟨h.1, trivial⟩
    · split at hmove
      · cases hmove
        exact moved_write hfs hclean h (size + 1)
      · next hlt =>
        cases hmove
        obtain ⟨htmp, hdigest, hinode, hcontent, -⟩ := h
        rw [List.take_of_length_le (Nat.le_of_not_lt hlt)] at hcontent
        exact .same ⟨htmp, bytes, Files.read_eq_some.mpr ⟨n, hinode, hcontent⟩, hdigest⟩
  · next t _ fault =>
    dsimp only at hmove
    split at hmove
    · cases hmove
      exact .same ⟨h.1, trivial⟩
    · next hnone =>
      -- the call has written the file, and no other one has it
      obtain ⟨-, text, htext, -⟩ := h
      obtain ⟨n, hn, -⟩ := Files.read_eq_some.mp htext
      rw [Files.rename, hn] at hnone
      cases hnone
    · next hsome =>
      cases hmove
      exact moved_rename hfs hclean h hsome
  · next t failure _ fault =>
    cases hmove
    split
    · exact .same h.2
    · exact moved_unlink hfs hclean h
  · cases hmove

/-- A call comes to have a temporary file when it opens it. -/
theorem move_holds {l : Label} (hmove : move p o fs artifact phase l = some (fs', phase'))
    (ht : phase'.holds t = true) :
    phase.holds t = true ∨ ∃ bytes i fault, phase = .creating t bytes ∧ l = .create i fault := by
  unfold move at hmove
  split at hmove
  · next fault =>
    cases hmove
    cases fault <;> cases ht
  · cases hmove
    split at ht <;> cases ht
  · cases hmove
    split at ht <;> cases ht
  · cases hmove
    split at ht
    · cases ht
    · split at ht
      · unfold verify at ht
        split at ht <;> cases ht
      · cases ht
  · next result now =>
    cases hmove
    unfold receive at ht
    split at ht
    · cases ht
    · split at ht <;> cases ht
  · next tmp bytes i fault =>
    -- opened, or about to be removed because it could not be
    have htmp : tmp = t := by
      split at hmove <;> cases hmove <;> exact beq_iff_eq.mp ht
    exact .inr ⟨bytes, i, fault, htmp ▸ rfl, rfl⟩
  · split at hmove
    · cases hmove
      exact .inl ht
    · split at hmove <;> cases hmove <;> exact .inl ht
  · dsimp only at hmove
    split at hmove <;> cases hmove
    · exact .inl ht
    · exact .inl ht
    · cases ht
  · cases hmove
    cases ht
  · cases hmove

/-- The file that a call changes is one that it has, or that it opens. -/
theorem move_uses {l : Label} (hmove : move p o fs artifact phase l = some (fs', phase'))
    (ht : phase.uses t) :
    phase.holds t = true ∨ ∃ bytes i fault, phase = .creating t bytes ∧ l = .create i fault := by
  cases phase with
  | creating tmp bytes =>
    cases ht
    cases l with
    | create i fault => exact .inr ⟨bytes, i, fault, rfl, rfl⟩
    | _ => cases hmove
  | _ => exact .inl ht

end moves

/-! ### Runs -/

section runs
variable {p : Platform} {o : Options} {s₀ s s' : State} {l : Label} {i : Nat} {c : Call}

theorem next_cases (h : next p o s l = some s') :
    (∃ artifact, l = .materialize artifact ∧
      s' = { s with calls := s.calls ++ [⟨artifact, begin p artifact⟩] }) ∨
    ∃ i c files phase, l.call? = some i ∧ s.calls[i]? = some c ∧
      move p o s.files c.artifact c.phase l = some (files, phase) ∧
      s' = ⟨files, s.calls.set i { c with phase }⟩ := by
  unfold next at h
  split at h
  · next artifact => exact .inl ⟨artifact, rfl, (Option.some.inj h).symm⟩
  · obtain ⟨i, hi, h⟩ := Option.bind_eq_some_iff.mp h
    obtain ⟨c, hc, h⟩ := Option.bind_eq_some_iff.mp h
    obtain ⟨⟨files, phase⟩, hmove, rfl⟩ := Option.map_eq_some_iff.mp h
    exact .inr ⟨i, c, files, phase, hi, hc, hmove, rfl⟩

theorem move_done {fs : Files String UInt8} {artifact : ArtifactReference}
    {result : Except Failure MaterializedArtifact} :
    move p o fs artifact (.done result) l = none := by
  cases l <;> rfl

/-- What holds throughout a run whose steps are apart. -/
structure Kept (p : Platform) (o : Options) (s₀ s : State) : Prop where
  wellFormed : s.files.WellFormed
  clean : Clean p o s.files
  relies : ∀ (i : Nat) (c : Call), s.calls[i]? = some c →
    Relies p o s.files c.artifact.digest c.phase
  /-- No two calls have one temporary file. -/
  alone : ∀ (i j : Nat) (c d : Call) (t : String), s.calls[i]? = some c → s.calls[j]? = some d →
    c.phase.holds t = true → d.phase.holds t = true → i = j
  placed : ∀ bytes, (s.files.inode (cachePath o (sha256Digest p bytes))).isSome →
    (s₀.files.inode (cachePath o (sha256Digest p bytes))).isSome ∨
      ∃ c ∈ s.calls, ∃ m, c.phase = .done (.ok m) ∧ c.artifact.digest = sha256Digest p bytes

theorem Kept.init (h : (machine p o).init s₀) : Kept p o s₀ s₀ := by
  obtain ⟨hcalls, hfs, hclean⟩ := h
  refine ⟨hfs, hclean, fun i c hc => ?_, fun i j c d t hc => ?_, fun _ => .inl⟩
  · rw [hcalls] at hc
    cases hc
  · rw [hcalls] at hc
    cases hc

/-- A temporary file that a call has, or opens, no other one has. -/
theorem Kept.free (hs : Kept p o s₀ s) (hapart : Apart p o s l) (hi : l.call? = some i)
    (hc : s.calls[i]? = some c) {t : String}
    (ht : c.phase.holds t = true ∨
      ∃ bytes i fault, c.phase = .creating t bytes ∧ l = .create i fault)
    {j : Nat} {d : Call} (hd : s.calls[j]? = some d) (hji : j ≠ i) : d.phase.holds t = false := by
  rcases ht with hholds | ⟨bytes, k, fault, hphase, rfl⟩
  · refine Bool.eq_false_iff.mpr fun hdt => hji ?_
    exact hs.alone j i d c t hd hc hdt hholds
  · cases hi
    exact hapart c t bytes hc hphase d (List.mem_of_getElem? hd)

theorem Kept.materialize (hs : Kept p o s₀ s) (artifact : ArtifactReference)
    (hapart : Apart p o s (.materialize artifact)) :
    Kept p o s₀ { s with calls := s.calls ++ [⟨artifact, begin p artifact⟩] } := by
  have hbegin : Relies p o s.files artifact.digest (begin p artifact) := by
    generalize hphase : begin p artifact = phase
    -- a call that has just begun holds no temporary file
    unfold begin at hphase
    split at hphase
    · subst hphase
      trivial
    · split at hphase
      · split at hphase
        · subst hphase
          trivial
        · next path hpath =>
          have hfile : begin p artifact = .opening path .file := by
            unfold begin
            simp only [*]
            rfl
          subst hphase
          exact fun _ => ⟨hapart path hfile, fun ho => nomatch ho⟩
      · split at hphase <;> subst hphase <;> trivial
  have hholds (t : String) : (begin p artifact).holds t = false := by
    unfold begin
    split
    · rfl
    · split
      · split <;> rfl
      · split <;> rfl
  refine ⟨hs.wellFormed, hs.clean, fun j d hd => ?_, fun j k d e t hd he hdt het => ?_,
    fun bytes hsome => ?_⟩
  -- the calls before rely on files that the new one has not touched
  · rcases getElem?_snoc_iff.mp hd with hd | ⟨-, rfl⟩
    · exact hs.relies j d hd
    · exact hbegin
  · rcases getElem?_snoc_iff.mp hd with hd | ⟨-, rfl⟩
    · rcases getElem?_snoc_iff.mp he with he | ⟨-, rfl⟩
      · exact hs.alone j k d e t hd he hdt het
      · exact absurd het (Bool.eq_false_iff.mp (hholds t))
    · exact absurd hdt (Bool.eq_false_iff.mp (hholds t))
  · refine (hs.placed bytes hsome).imp_right ?_
    rintro ⟨d, hd, hplaced⟩
    exact ⟨d, List.mem_append_left _ hd, hplaced⟩

theorem Kept.move (hs : Kept p o s₀ s) (hapart : Apart p o s l) (hi : l.call? = some i)
    (hc : s.calls[i]? = some c) {files : Files String UInt8} {phase : Phase}
    (hmove : move p o s.files c.artifact c.phase l = some (files, phase)) :
    Kept p o s₀ ⟨files, s.calls.set i { c with phase }⟩ := by
  have hmoved := move_spec hs.wellFormed hs.clean (hs.relies i c hc) hmove
  -- the others go on: the file that changes is not theirs
  have hothers : ∀ (j : Nat) (d : Call), s.calls[j]? = some d → j ≠ i →
      Relies p o files d.artifact.digest d.phase := by
    intro j d hd hji
    rcases hmoved.changed with rfl | ⟨tmp, htmp, huses, hchange⟩
    · exact hs.relies j d hd
    · have hfree := hs.free hapart hi hc (move_uses hmove huses) hd hji
      exact (hs.relies j d hd).change hs.wellFormed htmp hchange hfree
  refine ⟨?_, ?_, fun j d hd => ?_, fun j k d e t hd he hdt het => ?_, fun bytes hsome => ?_⟩
  · rcases hmoved.changed with rfl | ⟨tmp, -, -, hchange⟩
    · exact hs.wellFormed
    · exact hchange.wellFormed
  · rcases hmoved.changed with rfl | ⟨tmp, -, -, hchange⟩
    · exact hs.clean
    · exact hchange.clean
  · rcases (getElem?_set_iff hc).mp hd with ⟨-, rfl⟩ | ⟨hji, hd⟩
    · exact hmoved.relies
    · exact hothers j d hd hji
  · rcases (getElem?_set_iff hc).mp hd with ⟨hj, rfl⟩ | ⟨hji, hd⟩ <;>
      rcases (getElem?_set_iff hc).mp he with ⟨hk, rfl⟩ | ⟨hki, he⟩
    · exact hj.trans hk.symm
    · have hfree := hs.free hapart hi hc (move_holds hmove hdt) he hki
      exact absurd het (Bool.eq_false_iff.mp hfree)
    · have hfree := hs.free hapart hi hc (move_holds hmove het) hd hji
      exact absurd hdt (Bool.eq_false_iff.mp hfree)
    · exact hs.alone j k d e t hd he hdt het
  · have hlt : i < s.calls.length := (List.getElem?_eq_some_iff.mp hc).1
    rcases hmoved.placed bytes hsome with hold | ⟨m, hdone, hdigest⟩
    · refine (hs.placed bytes hold).imp_right ?_
      rintro ⟨d, hd, m, hdone, hdigest⟩
      obtain ⟨j, hj⟩ := List.mem_iff_getElem?.mp hd
      have hji : j ≠ i := by
        rintro rfl
        rw [hc, Option.some.injEq] at hj
        subst hj
        rw [hdone, move_done] at hmove
        cases hmove
      exact ⟨d, List.mem_of_getElem? ((getElem?_set_iff hc).mpr (.inr ⟨hji, hj⟩)), m, hdone,
        hdigest⟩
    · exact .inr ⟨{ c with phase }, List.mem_set hlt _, m, hdone, hdigest⟩

theorem Kept.next (hs : Kept p o s₀ s) (hapart : Apart p o s l) (h : next p o s l = some s') :
    Kept p o s₀ s' := by
  rcases next_cases h with ⟨artifact, rfl, rfl⟩ | ⟨i, c, files, phase, hi, hc, hmove, rfl⟩
  · exact hs.materialize artifact hapart
  · exact hs.move hapart hi hc hmove

theorem Kept.sound (hs : Kept p o s₀ s) : Sound p o s₀ s := by
  refine ⟨fun c hc m hdone => ?_, hs.clean, hs.placed, fun c hc failure hdone => ?_⟩
  · obtain ⟨i, hi⟩ := List.mem_iff_getElem?.mp hc
    have hrelies := hs.relies i c hi
    rw [hdone] at hrelies
    exact ⟨hrelies.1, hrelies.2.2⟩
  · obtain ⟨i, hi⟩ := List.mem_iff_getElem?.mp hc
    have hrelies := hs.relies i c hi
    rw [hdone] at hrelies
    exact hrelies

/-- In runs whose steps are apart, the calls keep their promises. -/
theorem materialize_sound (h : (machine p o).init s₀) (ls : List Label)
    (hapart : (machine p o).StepsMeet (Apart p o) s₀ ls) :
    (machine p o).Always (Sound p o s₀) s₀ ls := by
  have hkept : (machine p o).Always (Kept p o s₀) s₀ ls :=
    LTS.Machine.always_of_stepsMeet (fun _ _ _ hs hC hl => hs.next hC hl) (Kept.init h) hapart
  exact hkept.mono fun _ hs => hs.sound

end runs

/-! ### Two calls in one millisecond -/

section runs

private def abc : Bytes := [97, 98, 99]

private def samplePlatform : Platform where
  parseUrl _ := some ⟨"https:", .error "The URL must be of scheme file"⟩
  sha256Hex bytes :=
    if bytes = abc then "ba7816bf8f01cfea414140de5dae2223b00361a396177a9cb410ff61f20015ad"
    else "e3b0c44298fc1c149afbf4c8996fb92427ae41e4649b934ca495991b7852b855"
  sha256Hex_digits bytes := by
    split
    · decide +kernel
    · decide +kernel

private def sampleOptions : Options := ⟨"/cache", 7⟩

private def sampleArtifact : ArtifactReference :=
  ⟨"art_1", "sha256:ba7816bf8f01cfea414140de5dae2223b00361a396177a9cb410ff61f20015ad",
    "https://artifacts.example/app.wasm"⟩

private def samplePath : String :=
  "/cache/sha256-ba7816bf8f01cfea414140de5dae2223b00361a396177a9cb410ff61f20015ad"

private def sampleState : State := ⟨⟨fun _ => none, fun _ => [], 0⟩, []⟩

private theorem sample_init : (machine samplePlatform sampleOptions).init sampleState := by
  refine ⟨rfl, ⟨fun _ _ h => ?_, fun _ _ _ h => ?_⟩, fun _ _ h => ?_⟩ <;> cases h

private def bothFetch : List Label :=
  [.materialize sampleArtifact, .materialize sampleArtifact, .mkdir 0 none, .mkdir 1 none,
    .access 0 false, .access 1 false, .fetch 0 (.ok abc) 1000, .fetch 1 (.ok abc) 1000]

/-- The second call opens the temporary file that the first one is about to rename. -/
private def crossing : List Label :=
  bothFetch ++ [.create 0 none, .write 0 9 none, .write 0 9 none, .create 1 none, .rename 0 none]

/-- The second call then fails. -/
private def crossed : List Label :=
  crossing ++ [.write 1 9 none, .write 1 9 none, .rename 1 none, .unlink 1 false]

private def inTurn : List Label :=
  bothFetch ++ [.create 0 none, .write 0 9 none, .write 0 9 none, .rename 0 none,
    .create 1 none, .write 1 1 none, .write 1 9 none, .write 1 9 none, .rename 1 none]

/-- A call is fulfilled while the file in the cache is empty, and another call fails as
    the first one has succeeded. -/
theorem sharedTemporary :
    (machine samplePlatform sampleOptions).init sampleState ∧
      (((machine samplePlatform sampleOptions).run sampleState crossing).map fun s =>
        (s.calls.map Call.phase, s.files.read samplePath)) =
        some ([.done (.ok (materialized sampleArtifact samplePath)),
          .writing (samplePath ++ ".tmp-7-1000") abc 0 0], some []) ∧
      (((machine samplePlatform sampleOptions).run sampleState crossed).map fun s =>
        s.calls.map Call.phase) =
        some [.done (.ok (materialized sampleArtifact samplePath)), .done (.error .tmpMissing)] ∧
      ¬ (machine samplePlatform sampleOptions).Always
        (Sound samplePlatform sampleOptions sampleState) sampleState crossed := by
  have hcrossed : (((machine samplePlatform sampleOptions).run sampleState crossed).map fun s =>
      s.calls.map Call.phase) =
      some [.done (.ok (materialized sampleArtifact samplePath)), .done (.error .tmpMissing)] := by
    decide +kernel
  refine ⟨sample_init, by decide +kernel, hcrossed, fun halways => ?_⟩
  obtain ⟨s, hs, hphases⟩ := Option.map_eq_some_iff.mp hcrossed
  have hmem : (.done (.error .tmpMissing) : Phase) ∈ s.calls.map Call.phase := by
    rw [hphases]
    exact List.mem_cons_of_mem _ (List.mem_singleton_self _)
  obtain ⟨c, hc, hphase⟩ := List.mem_map.mp hmem
  exact (halways.last hs).own c hc .tmpMissing hphase

/-- Locations are remote, and a temporary file that is opened is nobody's. -/
private def remoteApart (s : State) : Label → Bool
  | .create i _ =>
    match s.calls[i]? with
    | some ⟨_, .creating tmp _⟩ => s.calls.all fun d => !d.phase.holds tmp
    | _ => true
  | .materialize artifact => begin samplePlatform artifact == .making
  | _ => true

private theorem apart_of_remoteApart {s : State} {l : Label} (h : remoteApart s l = true) :
    Apart samplePlatform sampleOptions s l := by
  unfold Apart
  split
  · next i fault =>
    intro c tmp bytes hc hphase d hd
    obtain ⟨artifact, phase⟩ := c
    cases hphase
    simp only [remoteApart, hc, List.all_eq_true, Bool.not_eq_true'] at h
    exact h d hd
  · next artifact =>
    intro path hpath
    have hmaking := beq_iff_eq.mp h
    rw [hpath] at hmaking
    cases hmaking
  · trivial

theorem materialize_sound_inTurn :
    (machine samplePlatform sampleOptions).Always
        (Sound samplePlatform sampleOptions sampleState) sampleState inTurn ∧
      (((machine samplePlatform sampleOptions).run sampleState inTurn).map fun s =>
        s.calls.map Call.phase) =
        some [.done (.ok (materialized sampleArtifact samplePath)),
          .done (.ok (materialized sampleArtifact samplePath))] := by
  have hmeet : (machine samplePlatform sampleOptions).StepsMeet
      (fun s l => remoteApart s l = true) sampleState inTurn := by
    decide +kernel
  exact ⟨materialize_sound sample_init inTurn (hmeet.mono fun _ _ => apart_of_remoteApart),
    by decide +kernel⟩

end runs

end Odenctl.Runtime.ArtifactStore
