import AgentSchedBench.Agent.Runner
import AgentSchedBench.Agent.SessionFiles
import Mathlib

/-!
# The files of long results

A result that is too long is written to a file, whose name is made from the
key of the session and the id of the call.  A file that exists is left as it
is, whatever result it holds.  Old directories are removed with their files.
-/

namespace AgentSchedBench.Agent

open JsonText
open Trace (Text)

/-! ## Names -/

/-- The directory of a session; some names are not those of a directory below
the root. -/
inductive Bucket where
  | root
  | parent
  | child (name : Text)
deriving DecidableEq

/-- `root / safe_filename(session_key or "default")` -/
def bucketOf (sessionKey : Option Text) : Bucket :=
  match safeFilename
    (match sessionKey with
      | none | some [] => "default".toList
      | some key => key) with
  | [] | ['.'] => .root
  | ['.', '.'] => .parent
  | name => .child name

/-- `f"{safe_filename(tool_call_id)}.{suffix}"` -/
def resultFilename (toolCallId : Text) (suffix : String) : Text :=
  safeFilename toolCallId ++ '.' :: suffix.toList

/-- `json.dumps(content, ensure_ascii=False, indent=2)` of blocks of text -/
def dumpTextBlocks (texts : List String) : Text :=
  "[\n".toList ++
    ",\n".toList.intercalate (texts.map fun text =>
      "  \x7b\n    \"type\": \"text\",\n    \"text\": ".toList ++
        dumpString text ++ "\n  \x7d".toList) ++
    "\n]".toList

/-- What is written for a result. -/
def fileText : Content → Text
  | .none => []
  | .text value => value.toList
  | .blocks items => dumpTextBlocks (items.filterMap Block.asText)

/-! ## The store -/

/-- The directories below the root in the order of `iterdir`, and the
files. -/
structure ResultStore where
  dirs : List Text
  files : Bucket → Text → Option Text

/-- A call of `maybe_persist_tool_result`, the times that it meets with, and
whether a file can be written. -/
structure PersistEvent where
  sessionKey : Option Text
  toolCallId : Text
  content : Content
  maxChars : Int
  mtime : Text → Int
  now : Int
  writeFails : Bool

/-- `_TOOL_RESULT_RETENTION_SECS` -/
def toolResultRetentionSecs : Int := 7 * 24 * 60 * 60

/-- `_TOOL_RESULT_MAX_BUCKETS` -/
def toolResultMaxBuckets : Nat := 32

namespace ResultStore

/-- `path.exists()` -/
def Exists (store : ResultStore) (bucket : Bucket) (name : Text) : Prop :=
  (store.files bucket name).isSome ∨ bucket = .root ∧ name ∈ store.dirs

instance (store : ResultStore) (bucket : Bucket) (name : Text) :
    Decidable (store.Exists bucket name) :=
  inferInstanceAs (Decidable (_ ∨ _))

local instance lawfulText : LawfulBEq Text := inferInstance

/-- `ensure_dir(bucket)`; it raises for the path of a file. -/
def ensureDir (store : ResultStore) : Bucket → Option ResultStore
  | .child name =>
      if (store.files .root name).isSome then none
      else if name ∈ store.dirs then some store
      else some { store with dirs := store.dirs ++ [name] }
  | _ => some store

/-- The directories that `_cleanup_tool_result_buckets` removes. -/
def removed (store : ResultStore) (event : PersistEvent) (current : Bucket) :
    List Text :=
  let siblings := store.dirs.filter fun name => Bucket.child name ≠ current
  let isOld := fun name =>
    decide (event.mtime name < event.now - toolResultRetentionSecs)
  let old := siblings.filter isOld
  let keep := toolResultMaxBuckets - 1
  let siblings := siblings.filter fun name => !isOld name
  if siblings.length ≤ keep then old
  else
    old ++
      (siblings.mergeSort fun first second =>
        decide (event.mtime second ≤ event.mtime first)).drop keep

/-- `_cleanup_tool_result_buckets` -/
def cleanup (store : ResultStore) (event : PersistEvent) (current : Bucket) :
    ResultStore where
  dirs := store.dirs.filter fun name =>
    name ∉ store.removed event current
  files bucket name :=
    match bucket with
    | .child dir =>
        if dir ∈ store.removed event current then none
        else store.files (.child dir) name
    | bucket => store.files bucket name

def write (store : ResultStore) (bucket : Bucket) (name text : Text) :
    ResultStore :=
  { store with
    files := fun other file =>
      if other = bucket ∧ file = name then some text
      else store.files other file }

end ResultStore

/-- The text and the suffix of a result that is too long. -/
def PersistEvent.payload? (event : PersistEvent) : Option (String × String) :=
  (textPayload event.content).filter fun payload =>
    decide (0 < event.maxChars ∧ event.maxChars < payload.1.length)

def PersistEvent.bucket (event : PersistEvent) : Bucket :=
  bucketOf event.sessionKey

/-- The store when the directory of a result is there, and old ones are
removed. -/
def ResultStore.prepared (store : ResultStore) (event : PersistEvent) :
    Option ResultStore :=
  (store.ensureDir event.bucket).map fun store =>
    store.cleanup event event.bucket

/-- `maybe_persist_tool_result`, with the path that the new content refers
to. -/
def persist (store : ResultStore) (event : PersistEvent) :
    ResultStore × Option (Bucket × Text) :=
  match event.payload? with
  | none => (store, none)
  | some (_, suffix) =>
      match store.prepared event with
      | none => (store, none)
      | some store =>
          let name := resultFilename event.toolCallId suffix
          if store.Exists event.bucket name then
            (store, some (event.bucket, name))
          else if event.writeFails then (store, none)
          else
            (store.write event.bucket name (fileText event.content),
              some (event.bucket, name))

/-- The text of a path below the directory of the results. -/
def pathText (toolResultsDir : String) (bucket : Bucket) (name : Text) :
    String :=
  toolResultsDir ++ "/tool-results" ++
    (match bucket with
      | .root => ""
      | .parent => "/.."
      | .child dir => "/" ++ String.ofList dir) ++
    "/" ++ String.ofList name

/-- The content that the runner goes on with. -/
def PersistEvent.newContent (event : PersistEvent) (toolResultsDir : String)
    (path : Option (Bucket × Text)) : Content :=
  if path.isSome then
    maybePersistToolResult
      (some fun id suffix =>
        pathText toolResultsDir event.bucket (resultFilename id.toList suffix))
      (String.ofList event.toolCallId) event.content event.maxChars
  else event.content

/-! ## Runs -/

/-- The store after some calls. -/
def ResultStore.run (store : ResultStore) (events : List PersistEvent) :
    ResultStore :=
  events.foldl (fun store event => (persist store event).1) store

/-- A call removes the directory of a bucket. -/
def Removes (store : ResultStore) (event : PersistEvent) (bucket : Bucket) :
    Prop :=
  event.payload?.isSome ∧
    ∃ ensured dir, store.ensureDir event.bucket = some ensured ∧
      bucket = .child dir ∧ dir ∈ ensured.removed event event.bucket

/-- No call of a run removes the directory of a bucket. -/
def Stays (bucket : Bucket) : ResultStore → List PersistEvent → Prop
  | _, [] => True
  | store, event :: rest =>
      ¬ Removes store event bucket ∧ Stays bucket (persist store event).1 rest

/-- Whenever a content refers to a file, the file holds that very result, and
still does as long as its bucket is not removed. -/
def HoldsOwnResults (store : ResultStore) (events : List PersistEvent) : Prop :=
  ∀ before event between after,
    events = before ++ event :: (between ++ after) →
      ∀ bucket name,
        (persist (store.run before) event).2 = some (bucket, name) →
          Stays bucket (persist (store.run before) event).1 between →
            ((persist (store.run before) event).1.run between).files
              bucket name = some (fileText event.content)

/-- The path of a result that is too long does not exist, or is a file that
holds the result. -/
def NameFits (store : ResultStore) (event : PersistEvent) : Prop :=
  ∀ text suffix prepared, event.payload? = some (text, suffix) →
    store.prepared event = some prepared →
      ¬ prepared.Exists event.bucket
          (resultFilename event.toolCallId suffix) ∨
        prepared.files event.bucket (resultFilename event.toolCallId suffix) =
          some (fileText event.content)

section Step

variable {store : ResultStore} {event : PersistEvent}

/-- What a call does. -/
theorem persist_cases (store : ResultStore) (event : PersistEvent) :
    persist store event = (store, none) ∨
      ∃ text suffix prepared, event.payload? = some (text, suffix) ∧
        store.prepared event = some prepared ∧
        let name := resultFilename event.toolCallId suffix
        (prepared.Exists event.bucket name ∧
            persist store event = (prepared, some (event.bucket, name))) ∨
          (¬ prepared.Exists event.bucket name ∧
            (persist store event = (prepared, none) ∨
              persist store event =
                (prepared.write event.bucket name (fileText event.content),
                  some (event.bucket, name)))) := by
  rw [persist.eq_def]
  split
  · exact Or.inl rfl
  · next text suffix isPayload =>
      split
      · exact Or.inl rfl
      · next prepared isPrepared =>
          refine Or.inr ⟨text, suffix, prepared, isPayload, isPrepared, ?_⟩
          dsimp only
          split
          · next isThere => exact Or.inl ⟨isThere, rfl⟩
          · next missing =>
              refine Or.inr ⟨missing, ?_⟩
              split
              · exact Or.inl rfl
              · exact Or.inr rfl

/-- Files are left where their bucket is not removed. -/
theorem files_prepared {prepared : ResultStore} {bucket : Bucket} {name : Text}
    (isPayload : event.payload?.isSome)
    (isPrepared : store.prepared event = some prepared)
    (stays : ¬ Removes store event bucket) :
    prepared.files bucket name = store.files bucket name := by
  obtain ⟨ensured, isEnsured, rfl⟩ := Option.map_eq_some_iff.mp isPrepared
  have sameFiles : ensured.files = store.files := by
    rw [ResultStore.ensureDir.eq_def] at isEnsured
    split at isEnsured
    · split at isEnsured
      · cases isEnsured
      · split at isEnsured <;> cases isEnsured <;> rfl
    · cases isEnsured
      rfl
  rw [← sameFiles, ResultStore.cleanup]
  dsimp only
  split
  · next dir =>
      rw [if_neg]
      exact fun isRemoved =>
        stays ⟨isPayload, ensured, dir, isEnsured, rfl, isRemoved⟩
  · rfl

/-- A file that exists is not written. -/
theorem files_persist {bucket : Bucket} {name text : Text}
    (held : store.files bucket name = some text)
    (stays : ¬ Removes store event bucket) :
    (persist store event).1.files bucket name = some text := by
  rcases persist_cases store event with
    same | ⟨_, suffix, prepared, isPayload, isPrepared, result⟩
  · rw [same, held]
  · have kept : prepared.files bucket name = store.files bucket name :=
      files_prepared (Option.isSome_of_mem isPayload) isPrepared stays
    rw [held] at kept
    rcases result with ⟨-, same⟩ | ⟨missing, same | same⟩
    · rw [same, kept]
    · rw [same, kept]
    · rw [same, ResultStore.write]
      dsimp only
      rw [if_neg, kept]
      rintro ⟨rfl, rfl⟩
      exact missing (Or.inl (Option.isSome_of_mem kept))

theorem persist_existing {text suffix : String} {prepared : ResultStore}
    (isPayload : event.payload? = some (text, suffix))
    (isPrepared : store.prepared event = some prepared)
    (isThere : prepared.Exists event.bucket
      (resultFilename event.toolCallId suffix)) :
    persist store event =
      (prepared,
        some (event.bucket, resultFilename event.toolCallId suffix)) := by
  rw [persist, isPayload]
  dsimp only
  rw [isPrepared]
  exact if_pos isThere

/-- A content refers to a file of that very result if and only if the name
fits. -/
theorem holds_iff_nameFits :
    (∀ bucket name, (persist store event).2 = some (bucket, name) →
      (persist store event).1.files bucket name =
        some (fileText event.content)) ↔ NameFits store event := by
  constructor
  · intro holds text suffix prepared isPayload isPrepared
    rw [or_iff_not_imp_left, not_not]
    intro isThere
    have same := persist_existing isPayload isPrepared isThere
    have held := holds event.bucket (resultFilename event.toolCallId suffix)
      (by rw [same])
    rwa [same] at held
  · intro fits bucket name refers
    rcases persist_cases store event with
      same | ⟨text, suffix, prepared, isPayload, isPrepared, result⟩
    · rw [same] at refers
      cases refers
    · rcases result with ⟨isThere, same⟩ | ⟨-, same | same⟩
      · rw [same] at refers ⊢
        cases refers
        exact (fits text suffix prepared isPayload isPrepared).resolve_left
          (not_not.mpr isThere)
      · rw [same] at refers
        cases refers
      · rw [same] at refers ⊢
        cases refers
        exact if_pos ⟨rfl, rfl⟩

end Step

/-! ## The files of a run -/

/-- A file stays as long as its bucket does. -/
theorem files_run {store : ResultStore} {events : List PersistEvent}
    {bucket : Bucket} {name text : Text}
    (held : store.files bucket name = some text)
    (stays : Stays bucket store events) :
    (store.run events).files bucket name = some text := by
  induction events generalizing store with
  | nil => exact held
  | cons event rest induction =>
      obtain ⟨here, later⟩ := stays
      exact induction (files_persist held here) later

/-- Each content of a run refers to a file of that very result, for as long as
its bucket is there, if and only if the name fits at each call. -/
theorem holdsOwnResults_iff (store : ResultStore)
    (events : List PersistEvent) :
    HoldsOwnResults store events ↔
      ∀ before event after, events = before ++ event :: after →
        NameFits (store.run before) event := by
  constructor
  · intro holds before event after isRun
    refine holds_iff_nameFits.mp fun bucket name refers => ?_
    exact holds before event [] after isRun bucket name refers trivial
  · intro fits before event between after isRun bucket name refers stays
    exact files_run
      (holds_iff_nameFits.mpr (fits before event (between ++ after) isRun)
        bucket name refers) stays

/-- What the content refers to is the path that the store knows. -/
theorem newContent_refers {store : ResultStore} {event : PersistEvent}
    {bucket : Bucket} {name : Text} (toolResultsDir : String)
    (refers : (persist store event).2 = some (bucket, name)) :
    ∃ text suffix, textPayload event.content = some (text, suffix) ∧
      event.newContent toolResultsDir (persist store event).2 =
        .text (renderToolResultReference
          (pathText toolResultsDir bucket name) text.length
          (String.ofList (text.toList.take toolResultPreviewChars))
          (toolResultPreviewChars < text.length)) := by
  rcases persist_cases store event with
    same | ⟨text, suffix, prepared, isPayload, -, result⟩
  · rw [same] at refers
    cases refers
  · have isPath :
        (persist store event).2 =
          some (event.bucket, resultFilename event.toolCallId suffix) := by
      rcases result with ⟨-, same⟩ | ⟨-, same | same⟩
      · rw [same]
      · rw [same] at refers
        cases refers
      · rw [same]
    rw [isPath] at refers ⊢
    cases refers
    obtain ⟨isText, long⟩ := Option.filter_eq_some_iff.mp isPayload
    have long := of_decide_eq_true long
    dsimp only at long
    refine ⟨text, suffix, isText, ?_⟩
    rw [PersistEvent.newContent, Option.isSome_some, if_pos rfl,
      maybePersistToolResult.eq_def,
      isText]
    dsimp only
    rw [if_neg (by omega), String.toList_ofList]

/-! ## An id that is used again -/

/-- A result of the session `cli:direct` for the call `call_1`. -/
def sameIdEvent (result : String) : PersistEvent where
  sessionKey := some "cli:direct".toList
  toolCallId := "call_1".toList
  content := .text result
  maxChars := 3
  mtime _ := 0
  now := 0
  writeFails := false

/-- The second result refers to the file of the first. -/
theorem sameId_not_holdsOwnResults :
    ¬ HoldsOwnResults ⟨[], fun _ _ => none⟩
      [sameIdEvent "first", sameIdEvent "second"] := by
  intro holds
  have second := holds [sameIdEvent "first"] (sameIdEvent "second") [] [] rfl
    (.child "cli_direct".toList) "call_1.txt".toList (by decide) trivial
  revert second
  decide

end AgentSchedBench.Agent
