import Odenctl.ControlPlane.Contracts
import Odenctl.Framework.OrdMap

/-! # Operations of durable object storage

    The key-value operations of `DurableObjectStorage`
    (`control-plane/durable-object-storage.ts`) on the table of an object.  A
    row is kept as its key and its value: a value that passes the checks is
    what `JSON.parse` makes of its `JSON.stringify`.  Keys are well-formed
    texts: a lone surrogate would be bound as U+FFFD. -/

namespace Odenctl.Storage.ObjectStorage

open Odenctl.ControlPlane OrdMap

/-! ### Values and keys -/

mutual

/-- `assertJsonValue`, on values without cycles. -/
def assertJsonValue (field : String) : JsValue → Except ControlPlaneError Unit
  | .null | .str _ | .bool _ => .ok ()
  | .num (.finite _) => .ok ()
  | .num _ => .error (validationError s!"{field} must be finite")
  | .arr items => assertJsonItems field items
  | .obj fields => assertJsonFields field fields
  | .undefined => .error (validationError s!"{field} must be JSON serializable")

def assertJsonItems (field : String) : List JsValue → Except ControlPlaneError Unit
  | [] => .ok ()
  | item :: items =>
    match assertJsonValue field item with
    | .error error => .error error
    | .ok _ => assertJsonItems field items

def assertJsonFields (field : String) : List (String × JsValue) → Except ControlPlaneError Unit
  | [] => .ok ()
  | (key, child) :: fields =>
    if key = "" then .error (validationError s!"{field} object keys must not be empty")
    else
      match assertJsonValue field child with
      | .error error => .error error
      | .ok _ => assertJsonFields field fields

end

structure JsonValue where
  value : JsValue
  plain : assertJsonValue "durable object storage value" value = .ok ()
  deriving DecidableEq

/-- `storageJson`, up to the encoding. -/
def storageJson (value : JsValue) : Except ControlPlaneError JsonValue :=
  match h : assertJsonValue "durable object storage value" value with
  | .ok _ => .ok ⟨value, h⟩
  | .error error => .error error

def maxKeyBytes : Nat := 2048

/-- `sizedString`, for keys. -/
def storageKey : JsValue → Except ControlPlaneError String
  | .str key =>
    if key = "" ∨ key.utf8ByteSize > maxKeyBytes then
      .error (validationError
        s!"durable object storage key must be a non-empty string up to {maxKeyBytes} bytes")
    else if key.toList.any fun c => decide (c.toNat = 0) then
      .error (validationError "durable object storage key must not contain null bytes")
    else .ok key
  | _ => .error (validationError
      s!"durable object storage key must be a non-empty string up to {maxKeyBytes} bytes")

def storageKeyBoundary (value : JsValue) (field : String) : Except ControlPlaneError String :=
  match value with
  | .str key =>
    if key.utf8ByteSize > maxKeyBytes then
      .error (validationError s!"{field} must be at most {maxKeyBytes} bytes")
    else .ok key
  | _ => .error (validationError s!"{field} must be at most {maxKeyBytes} bytes")

def nonnegativeInteger (value : JsValue) (field : String) : Except ControlPlaneError Nat :=
  match value with
  | .num (.finite q) =>
    if q.den = 1 ∧ 0 ≤ q.num ∧ q.num ≤ JsText.maxSafeInteger then .ok q.num.toNat
    else .error (validationError s!"{field} must be a nonnegative integer")
  | _ => .error (validationError s!"{field} must be a nonnegative integer")

/-! ### Operations -/

/-- The key-value table of an object. -/
abbrev Rows := OrdMap String JsonValue

/-- The first argument of `put`: a map with keys of any kind, or any other value. -/
inductive PutEntries where
  | map (entries : List (JsValue × JsValue))
  | other (value : JsValue)

structure ListOptions where
  keyPrefix : JsValue
  start : JsValue
  stop : JsValue
  limit : JsValue
  reverse : Bool

inductive Command where
  | get (keyOrKeys : JsValue)
  | put (keyOrEntries : PutEntries) (value : JsValue)
  | delete (keyOrKeys : JsValue)
  | list (options : ListOptions)

inductive Answer where
  | value (value : Option JsonValue)
  | values (values : OrdMap String JsonValue)
  | stored
  | deleted (existed : Bool)
  | deletedMany (count : Nat)
  /-- The entries of a map, in their order. -/
  | listed (entries : List (String × JsonValue))
  /-- What the callback of a transaction returned. -/
  | returned (value : JsValue)

def getOne (rows : Rows) (key : JsValue) : Except ControlPlaneError (Option JsonValue) := do
  return rows.get? (← storageKey key)

/-- The loop of `getMany`. -/
def getMany (rows : Rows) (out : OrdMap String JsonValue) :
    List JsValue → Except ControlPlaneError (OrdMap String JsonValue)
  | [] => .ok out
  | key :: keys => do
    let normalized ← storageKey key
    match ← getOne rows (.str normalized) with
    | some value => getMany rows (out.set normalized value) keys
    | none => getMany rows out keys

def normalizePutEntries (keyOrEntries : PutEntries) (value : JsValue) :
    Except ControlPlaneError (List (JsValue × JsValue)) :=
  match keyOrEntries, value with
  | .other (.str _), .undefined =>
    .error (validationError "durable object storage value must be JSON serializable")
  | .other (.str key), value => .ok [(.str key, value)]
  | .map entries, _ => .ok entries
  | .other (.obj fields), _ => .ok (fields.map fun field => (.str field.1, field.2))
  | .other _, _ =>
    .error (validationError "durable object storage put entries must be an object or Map")

def putArguments (entry : JsValue × JsValue) : Except ControlPlaneError (String × JsonValue) := do
  let key ← storageKey entry.1
  return (key, ← storageJson entry.2)

/-- The loop of `putEntries`: one statement for each entry. -/
def putEntries (rows : Rows) :
    List (JsValue × JsValue) → Except ControlPlaneError Unit × Rows
  | [] => (.ok (), rows)
  | entry :: entries =>
    match putArguments entry with
    | .error error => (.error error, rows)
    | .ok (key, value) => putEntries (rows.set key value) entries

def deleteOne (rows : Rows) (key : JsValue) : Except ControlPlaneError Bool × Rows :=
  match storageKey key with
  | .error error => (.error error, rows)
  | .ok key => (.ok (rows.get? key).isSome, rows.delete key)

/-- The loop of `deleteMany`. -/
def deleteMany (rows : Rows) (deleted : Nat) :
    List JsValue → Except ControlPlaneError Nat × Rows
  | [] => (.ok deleted, rows)
  | key :: keys =>
    match deleteOne rows key with
    | (.error error, rows) => (.error error, rows)
    | (.ok existed, rows) => deleteMany rows (if existed then deleted + 1 else deleted) keys

def optional {α : Type} (value : JsValue) (check : JsValue → Except ControlPlaneError α) :
    Except ControlPlaneError (Option α) :=
  match value with
  | .undefined => .ok none
  | value => return some (← check value)

/-- The order of the keys: by code points, as that of their UTF-8 bytes. -/
def keyLe (left right : String × JsonValue) : Prop := ¬ right.1 < left.1

instance : DecidableRel keyLe := fun left right =>
  inferInstanceAs (Decidable (¬ right.1 < left.1))

def listValues (rows : Rows) (options : ListOptions) :
    Except ControlPlaneError (List (String × JsonValue)) := do
  let pre ← optional options.keyPrefix (storageKeyBoundary · "durable object storage list prefix")
  let start ← optional options.start (storageKeyBoundary · "durable object storage list start")
  let stop ← optional options.stop (storageKeyBoundary · "durable object storage list end")
  let limit ← optional options.limit (nonnegativeInteger · "durable object storage list limit")
  let found := rows.items.filter fun row =>
    (pre.all fun p => decide (¬ row.1 < p) && decide (row.1 < p ++ "\uffff")) &&
      (start.all fun s => decide (¬ row.1 < s)) && (stop.all fun e => decide (row.1 < e))
  let sorted := found.insertionSort keyLe
  let ordered := if options.reverse then sorted.reverse else sorted
  return match limit with
    | some limit => ordered.take limit
    | none => ordered

def mapAnswer {α : Type} (f : α → Answer) (result : Except ControlPlaneError α × Rows) :
    Except ControlPlaneError Answer × Rows :=
  (result.1.map f, result.2)

/-- The statements of an operation, one after another. -/
def Command.perform (rows : Rows) : Command → Except ControlPlaneError Answer × Rows
  | .get (.arr keys) => ((getMany rows .empty keys).map .values, rows)
  | .get key => ((getOne rows key).map .value, rows)
  | .put keyOrEntries value =>
    match normalizePutEntries keyOrEntries value with
    | .error error => (.error error, rows)
    | .ok entries => mapAnswer (fun _ => .stored) (putEntries rows entries)
  | .delete (.arr keys) => mapAnswer .deletedMany (deleteMany rows 0 keys)
  | .delete key => mapAnswer .deleted (deleteOne rows key)
  | .list options => ((listValues rows options).map .listed, rows)

/-! ### Operations on a finite map -/

/-- An operation that writes nothing unless it succeeds: a put or delete checks
    its whole batch first. -/
def Command.atomic (rows : Rows) : Command → Except ControlPlaneError Answer × Rows
  | .put keyOrEntries value =>
    match (normalizePutEntries keyOrEntries value).bind (·.mapM putArguments) with
    | .error error => (.error error, rows)
    | .ok entries =>
      (.ok .stored, entries.foldl (fun rows entry => rows.set entry.1 entry.2) rows)
  | .delete (.arr keys) =>
    match keys.mapM storageKey with
    | .error error => (.error error, rows)
    | .ok keys =>
      let rest := keys.foldl OrdMap.delete rows
      (.ok (.deletedMany (rows.size - rest.size)), rest)
  | command => command.perform rows

/-- What an operation has written when it comes to its first invalid entry is
    what the table had before. -/
def Unspoilt (rows : Rows) : Command → Prop
  | .put keyOrEntries value =>
    ∀ entries ∈ (normalizePutEntries keyOrEntries value).toOption,
      (∀ entry ∈ entries, (putArguments entry).isOk) ∨
      ∀ entry ∈ entries.takeWhile fun entry => (putArguments entry).isOk,
        ∀ argument ∈ (putArguments entry).toOption, rows.get? argument.1 = some argument.2
  | .delete (.arr keys) =>
    (∀ key ∈ keys, (storageKey key).isOk) ∨
    ∀ key ∈ keys.takeWhile fun key => (storageKey key).isOk,
      ∀ name ∈ (storageKey key).toOption, rows.get? name = none
  | _ => True

instance (rows : Rows) : DecidablePred (Unspoilt rows) := fun command =>
  match command with
  | .put keyOrEntries value =>
    inferInstanceAs (Decidable (∀ entries ∈ (normalizePutEntries keyOrEntries value).toOption, _))
  | .delete (.arr keys) => inferInstanceAs (Decidable ((∀ key ∈ keys, _) ∨ _))
  | .delete .undefined | .delete .null | .delete (.bool _) | .delete (.num _) | .delete (.str _)
  | .delete (.obj _) | .get _ | .list _ => isTrue trivial

/-! ### Statements and batches -/

theorem foldl_set_stored {rows : Rows} {entries : List (String × JsonValue)}
    (h : ∀ entry ∈ entries, rows.get? entry.1 = some entry.2) :
    entries.foldl (fun rows entry => rows.set entry.1 entry.2) rows = rows := by
  induction entries with
  | nil => rfl
  | cons entry entries ih =>
    rw [List.foldl_cons, set_of_some (h entry List.mem_cons_self)]
    exact ih fun entry' hmem => h entry' (List.mem_cons_of_mem _ hmem)

theorem foldl_delete_absent {rows : Rows} {keys : List String}
    (h : ∀ key ∈ keys, rows.get? key = none) : keys.foldl delete rows = rows := by
  induction keys with
  | nil => rfl
  | cons key keys ih =>
    rw [List.foldl_cons, delete_of_none (h key List.mem_cons_self)]
    exact ih fun key' hmem => h key' (List.mem_cons_of_mem _ hmem)

theorem foldl_delete_size_le (keys : List String) (rows : Rows) :
    (keys.foldl delete rows).size ≤ rows.size := by
  induction keys generalizing rows with
  | nil => exact le_rfl
  | cons key keys ih => exact (ih _).trans (size_delete_le _ _)

/-- The checks of the entries before the first invalid one. -/
def validPrefix {α β : Type} (check : α → Except ControlPlaneError β) : List α → List β
  | [] => []
  | a :: as =>
    match check a with
    | .error _ => []
    | .ok b => b :: validPrefix check as

variable {α β : Type} {check : α → Except ControlPlaneError β}

theorem mem_validPrefix {as : List α} {b : β} (h : b ∈ validPrefix check as) :
    ∃ a ∈ as.takeWhile fun a => (check a).isOk, check a = .ok b := by
  induction as with
  | nil => cases h
  | cons a as ih =>
    unfold validPrefix at h
    cases hcheck : check a with
    | error error =>
      rw [hcheck] at h
      cases h
    | ok b' =>
      rw [hcheck] at h
      have hok : (check a).isOk = true := by
        rw [hcheck]
        rfl
      rw [List.takeWhile_cons, if_pos hok]
      rcases List.mem_cons.mp h with rfl | h
      · exact ⟨a, List.mem_cons_self, hcheck⟩
      · obtain ⟨a', hmem, ha'⟩ := ih h
        exact ⟨a', List.mem_cons_of_mem _ hmem, ha'⟩

theorem mapM_cons_eq (check : α → Except ControlPlaneError β) (a : α) (as : List α) :
    (a :: as).mapM check =
      match check a with
      | .error error => .error error
      | .ok b => (as.mapM check).map (b :: ·) := by
  rw [List.mapM_cons]
  cases check a with
  | error error => rfl
  | ok b => cases as.mapM check <;> rfl

/-- Checks that all succeed let a batch through. -/
theorem mapM_isOk {as : List α} (h : ∀ a ∈ as, (check a).isOk) : ∃ bs, as.mapM check = .ok bs := by
  induction as with
  | nil => exact ⟨[], rfl⟩
  | cons a as ih =>
    obtain ⟨b, hb⟩ := Except.isOk_iff.mp (h a List.mem_cons_self)
    obtain ⟨bs, hbs⟩ := ih fun a' hmem => h a' (List.mem_cons_of_mem _ hmem)
    refine ⟨b :: bs, ?_⟩
    rw [mapM_cons_eq, hb, hbs]
    rfl

/-- A batch of puts, statement by statement, writes what comes before its first
    invalid entry. -/
theorem putEntries_eq (rows : Rows) (entries : List (JsValue × JsValue)) :
    putEntries rows entries = ((entries.mapM putArguments).map fun _ => (),
      (validPrefix putArguments entries).foldl (fun rows entry => rows.set entry.1 entry.2)
        rows) := by
  induction entries generalizing rows with
  | nil => rfl
  | cons entry entries ih =>
    unfold putEntries validPrefix
    rw [mapM_cons_eq]
    cases hentry : putArguments entry with
    | error error => rfl
    | ok argument =>
      obtain ⟨key, value⟩ := argument
      dsimp only
      rw [ih]
      cases entries.mapM putArguments <;> rfl

theorem deleteMany_eq (rows : Rows) (deleted : Nat) (keys : List JsValue) :
    deleteMany rows deleted keys =
      ((keys.mapM storageKey).map fun names =>
        deleted + (rows.size - (names.foldl delete rows).size),
        (validPrefix storageKey keys).foldl delete rows) := by
  -- the first key that is refused ends the loop, after the ones before it were deleted
  induction keys generalizing rows deleted with
  | nil => simp [deleteMany, validPrefix, Except.map, pure, Except.pure]
  | cons key keys ih =>
    unfold deleteMany validPrefix deleteOne
    rw [mapM_cons_eq]
    cases hkey : storageKey key with
    | error error => rfl
    | ok name =>
      dsimp only
      rw [ih]
      cases hnames : keys.mapM storageKey with
      | error error => rfl
      | ok names =>
        have hle : (names.foldl delete (rows.delete name)).size ≤ (rows.delete name).size :=
          foldl_delete_size_le names _
        simp only [Except.map, List.foldl_cons, Prod.mk.injEq, Except.ok.injEq, and_true]
        cases hrow : rows.get? name with
        | none =>
          rw [delete_of_none hrow]
          simp
        | some value =>
          have hsize := size_delete (get?_eq_some.mp hrow)
          simp only [Option.isSome_some, if_true]
          omega

theorem validPrefix_of_ok {as : List α} {bs : List β} (h : as.mapM check = .ok bs)
    : validPrefix check as = bs := by
  induction as generalizing bs with
  | nil =>
    cases h
    rfl
  | cons a as ih =>
    rw [mapM_cons_eq] at h
    unfold validPrefix
    cases hcheck : check a with
    | error error =>
      rw [hcheck] at h
      cases h
    | ok b =>
      rw [hcheck] at h
      cases hrest : as.mapM check with
      | error error =>
        rw [hrest] at h
        cases h
      | ok bs' =>
        rw [hrest] at h
        cases h
        rw [← ih hrest]

theorem deleteOne_error {rows : Rows} {key : JsValue} {f : Bool → Answer}
    {error : ControlPlaneError} (h : ((deleteOne rows key).1.map f) = .error error) :
    (deleteOne rows key).2 = rows := by
  unfold deleteOne at h ⊢
  cases hkey : storageKey key with
  | error error => rfl
  | ok name =>
    rw [hkey] at h
    cases h

/-- What the statements of an operation do, against the whole operation: the
    answer is the same, and so are the rows, unless something was written
    before an error. -/
theorem perform_spec (rows : Rows) (command : Command) :
    (command.perform rows).1 = (command.atomic rows).1 ∧
      ((∃ answer, (command.atomic rows).1 = .ok answer) ∨ Unspoilt rows command →
        (command.perform rows).2 = (command.atomic rows).2) ∧
      ∀ error, (command.atomic rows).1 = .error error → (command.atomic rows).2 = rows := by
  -- only `put` and `delete` of several keys can fail after their first write
  cases command with
  | get keyOrKeys =>
    refine ⟨rfl, fun _ => rfl, fun error _ => ?_⟩
    cases keyOrKeys <;> rfl
  | list options => exact ⟨rfl, fun _ => rfl, fun error _ => rfl⟩
  | put keyOrEntries value =>
    cases hentries : normalizePutEntries keyOrEntries value with
    | error error =>
      have hperform : (Command.put keyOrEntries value).perform rows = (.error error, rows) := by
        unfold Command.perform
        dsimp only
        rw [hentries]
      have hatomic : (Command.put keyOrEntries value).atomic rows = (.error error, rows) := by
        unfold Command.atomic
        dsimp only
        rw [hentries]
        rfl
      rw [hperform, hatomic]
      exact ⟨rfl, fun _ => rfl, fun _ _ => rfl⟩
    | ok entries =>
      have hperform : (Command.put keyOrEntries value).perform rows =
          mapAnswer (fun _ => .stored) (putEntries rows entries) := by
        unfold Command.perform
        dsimp only
        rw [hentries]
      have hatomic : (Command.put keyOrEntries value).atomic rows =
          match entries.mapM putArguments with
          | .error error => (.error error, rows)
          | .ok entries =>
            (.ok .stored, entries.foldl (fun rows entry => rows.set entry.1 entry.2) rows) := by
        unfold Command.atomic
        dsimp only
        rw [hentries]
        rfl
      rw [hperform, hatomic, putEntries_eq]
      cases harguments : entries.mapM putArguments with
      | ok arguments =>
        dsimp only
        rw [validPrefix_of_ok harguments]
        refine ⟨rfl, fun _ => rfl, ?_⟩
        intro error herror
        cases herror
      | error error =>
        refine ⟨rfl, ?_, fun _ _ => rfl⟩
        rintro (⟨answer, hanswer⟩ | hunspoilt)
        · cases hanswer
        · have hbatch := hunspoilt entries (by rw [hentries]; rfl)
          rcases hbatch with hvalid | hstored
          · obtain ⟨bs, hbs⟩ := mapM_isOk hvalid
            rw [harguments] at hbs
            cases hbs
          · -- what comes before the invalid entry is stored already
            apply foldl_set_stored
            intro argument hmem
            obtain ⟨entry, hentry, hchecked⟩ := mem_validPrefix hmem
            exact hstored entry hentry argument (by rw [hchecked]; rfl)
  | delete keyOrKeys =>
    cases keyOrKeys with
    | arr keys =>
      unfold Command.perform Command.atomic
      dsimp only
      rw [deleteMany_eq]
      cases hnames : keys.mapM storageKey with
      | ok names =>
        dsimp only
        rw [validPrefix_of_ok hnames]
        refine ⟨?_, fun _ => rfl, ?_⟩
        · simp [mapAnswer, Except.map]
        · intro error herror
          cases herror
      | error error =>
        refine ⟨rfl, ?_, fun _ _ => rfl⟩
        rintro (⟨answer, hanswer⟩ | hvalid | habsent)
        · cases hanswer
        · obtain ⟨names, hok⟩ := mapM_isOk hvalid
          rw [hnames] at hok
          cases hok
        · apply foldl_delete_absent
          intro name hmem
          obtain ⟨key, hkey, hchecked⟩ := mem_validPrefix hmem
          exact habsent key hkey name (by rw [hchecked]; rfl)
    | _ =>
      refine ⟨rfl, fun _ => rfl, ?_⟩
      intro error herror
      simp only [Command.atomic, Command.perform, mapAnswer] at herror ⊢
      exact deleteOne_error herror

end Odenctl.Storage.ObjectStorage
