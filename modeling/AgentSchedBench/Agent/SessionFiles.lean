import AgentSchedBench.Library.Loops
import AgentSchedBench.Trace.RoundTrip

/-!
# The files of sessions

`SessionManager` keeps each session in a file, whose name is made from the key
of the session.  The first line of the file is a record of the session, and
each other line is a message.
-/

namespace AgentSchedBench.Agent

open JsonText TextLines
open Trace

/-! ## File names -/

/-- `_UNSAFE_CHARS` -/
def isUnsafeChar (char : Char) : Bool :=
  ['<', '>', ':', '"', '/', '\\', '|', '?', '*'].contains char

/-- `safe_filename` -/
def safeFilename (name : Text) : Text :=
  strip (name.map fun char => if isUnsafeChar char then '_' else char)

/-- The name of the file in `_get_session_path`. -/
def sessionPath (key : Text) : Text :=
  safeFilename (key.map fun char => if char = ':' then '_' else char) ++
    ".jsonl".toList

/-! ## Sessions -/

/-- The texts of times that `datetime.fromisoformat` accepts. -/
abbrev IsoFormat := String → Bool

/-- A session, as it is held in memory. -/
structure StoredSession (isIso : IsoFormat) where
  key : Text
  messages : List Record
  createdAt : String
  updatedAt : String
  metadata : Record
  lastConsolidated : Int
  messagesWellFormed : ∀ message ∈ messages, WellFormed (.obj message)
  metadataWellFormed : WellFormed (.obj metadata)
  createdIso : isIso createdAt = true

/-- A session, as it is read from a file. -/
structure LoadedSession where
  messages : List Record
  createdAt : Option String
  metadata : Json
  lastConsolidated : Json

/-- The files of the directory, by their names. -/
abbrev SessionFiles := Text → Option Text

namespace StoredSession

variable {isIso : IsoFormat} (session : StoredSession isIso)

/-- `metadata_line` -/
def metadataLine : Record :=
  [("_type", .str "metadata"), ("key", .str (String.ofList session.key)),
    ("created_at", .str session.createdAt),
    ("updated_at", .str session.updatedAt),
    ("metadata", .obj session.metadata),
    ("last_consolidated", .int session.lastConsolidated)]

/-- The file that `save` writes. -/
def fileText : Text := traceText (session.metadataLine :: session.messages)

/-- `save` -/
def save (files : SessionFiles) : SessionFiles := fun path =>
  if path = sessionPath session.key then some session.fileText
  else files path

end StoredSession

/-! ## Loading -/

/-- `data.get("_type") == "metadata"` -/
def isSessionMetadata (data : Record) : Bool :=
  data.fieldIs "_type" "metadata"

section Load

variable (isIso : IsoFormat)

/-- The time of a metadata record; what is no text of a time raises. -/
def parseCreatedAt (data : Record) : Except ReadError (Option String) :=
  let value := data.get "created_at"
  if isTruthy value then
    match value with
    | .str text => if isIso text then .ok (some text) else .error .decode
    | _ => .error .type
  else .ok none

/-- What the loop of `_load` does with a record. -/
def loadRecord (loaded : LoadedSession) (data : Record) :
    Except ReadError LoadedSession :=
  if isSessionMetadata data then
    (parseCreatedAt isIso data).map fun createdAt =>
      { loaded with
        createdAt
        metadata := (fieldOf data "metadata").getD (.obj [])
        lastConsolidated :=
          (fieldOf data "last_consolidated").getD (.int 0) }
  else .ok { loaded with messages := loaded.messages ++ [data] }

/-- The body of the loop. -/
def loadLine (loaded : LoadedSession) (line : Text) :
    Except ReadError LoadedSession :=
  let line := strip line
  if line = [] then .ok loaded
  else (parseRecord line).bind (loadRecord isIso loaded)

/-- `_load`; a file that does not exist gives no session. -/
def loadSession (files : SessionFiles) (key : Text) :
    Except ReadError (Option LoadedSession) :=
  match files (sessionPath key) with
  | none => .ok none
  | some text =>
      ((fileLines text).foldlM (loadLine isIso)
        ⟨[], none, .obj [], .int 0⟩).map some

end Load

/-! ## What is loaded -/

/-- What is loaded is the session. -/
structure LoadedSession.Restores {isIso : IsoFormat}
    (loaded : LoadedSession) (session : StoredSession isIso) : Prop where
  messages : loaded.messages = session.messages
  metadata : loaded.metadata = .obj session.metadata
  lastConsolidated : loaded.lastConsolidated = .int session.lastConsolidated

theorem fileLines_traceText {records : List Record}
    (wellFormed : ∀ record ∈ records, WellFormed (.obj record)) :
    fileLines (traceText records) =
      records.map fun record => dumps (.obj record) := by
  induction records with
  | nil => rfl
  | cons record records induction =>
      rw [List.forall_mem_cons] at wellFormed
      have inLine (char : Char) (isBoundary : isLineBoundary char = true)
          (notSeparator : isSeparator char = false) :
          char ∉ dumps (.obj record) := by
        rw [boundary_mem_dumps wellFormed.1 isBoundary, notSeparator]
        nofun
      rw [traceText, List.flatMap_cons, recordLine, List.append_assoc,
        List.singleton_append,
        fileLines_append (inLine '\r' (by decide) (by decide))
          (inLine '\n' (by decide) (by decide)),
        ← traceText, induction wellFormed.2, List.map_cons]

section Load

variable {isIso : IsoFormat}

theorem loadLine_dumps (loaded : LoadedSession) {data : Record}
    (wellFormed : WellFormed (.obj data)) :
    loadLine isIso loaded (dumps (.obj data)) =
      loadRecord isIso loaded data := by
  have some : dumps (.obj data) ≠ [] := by
    rw [dumps_obj]
    nofun
  rw [loadLine, strip_dumps, if_neg some, parseRecord_dumps wellFormed]
  rfl

theorem foldlM_loadLine {records : List Record}
    (wellFormed : ∀ record ∈ records, WellFormed (.obj record))
    (loaded : LoadedSession) :
    (records.map fun record => dumps (.obj record)).foldlM
        (loadLine isIso) loaded =
      records.foldlM (loadRecord isIso) loaded := by
  induction records generalizing loaded with
  | nil => rfl
  | cons record records induction =>
      rw [List.forall_mem_cons] at wellFormed
      rw [List.map_cons, List.foldlM_cons, List.foldlM_cons,
        loadLine_dumps loaded wellFormed.1]
      exact congrArg _ (funext fun next => induction wellFormed.2 next)

/-- The messages that are loaded are those that say nothing else. -/
theorem foldlM_loadRecord_messages {records : List Record}
    {loaded final : LoadedSession}
    (folded : records.foldlM (loadRecord isIso) loaded = .ok final) :
    final.messages =
      loaded.messages ++
        records.filter fun record => !isSessionMetadata record := by
  induction records generalizing loaded with
  | nil =>
      cases folded
      exact (List.append_nil _).symm
  | cons record records induction =>
      rw [List.foldlM_cons] at folded
      obtain ⟨next, stepped, folded⟩ := Loops.bind_eq_ok.mp folded
      rw [induction folded]
      rw [loadRecord] at stepped
      split at stepped
      · next isMetadata =>
        rw [List.filter_cons_of_neg (by simp [isMetadata])]
        cases parsed : parseCreatedAt isIso record with
        | error failure =>
            rw [parsed] at stepped
            cases stepped
        | ok createdAt =>
            rw [parsed] at stepped
            cases stepped
            rfl
      · next isMessage =>
        cases stepped
        rw [List.filter_cons_of_pos (by simp [isMessage]), List.append_assoc,
          List.singleton_append]

theorem foldlM_loadRecord_plain {records : List Record}
    (plain : ∀ record ∈ records, isSessionMetadata record = false)
    (loaded : LoadedSession) :
    records.foldlM (loadRecord isIso) loaded =
      .ok { loaded with messages := loaded.messages ++ records } := by
  induction records generalizing loaded with
  | nil =>
      rw [List.append_nil]
      rfl
  | cons record records induction =>
      rw [List.forall_mem_cons] at plain
      rw [List.foldlM_cons, loadRecord, if_neg (by simp [plain.1])]
      refine (induction plain.2 _).trans ?_
      rw [List.append_assoc, List.singleton_append]

end Load

namespace StoredSession

variable {isIso : IsoFormat} (session : StoredSession isIso)

theorem wellFormed_metadataLine : WellFormed (.obj session.metadataLine) := by
  rw [wellFormed_obj]
  constructor
  · show ["_type", "key", "created_at", "updated_at", "metadata",
      "last_consolidated"].Nodup
    decide
  · simp only [metadataLine, List.forall_mem_cons, List.not_mem_nil,
      false_implies, implies_true, and_true]
    exact
      ⟨wellFormed_str _, wellFormed_str _, wellFormed_str _,
        wellFormed_str _, session.metadataWellFormed, wellFormed_int _⟩

theorem wellFormed_records :
    ∀ record ∈ session.metadataLine :: session.messages,
      WellFormed (.obj record) := by
  rw [List.forall_mem_cons]
  exact ⟨session.wellFormed_metadataLine, session.messagesWellFormed⟩

/-- What is there of the session when its first line has been read. -/
theorem loadRecord_metadataLine :
    ∃ createdAt,
      loadRecord isIso ⟨[], none, .obj [], .int 0⟩ session.metadataLine =
        .ok
          ⟨[], createdAt, .obj session.metadata,
            .int session.lastConsolidated⟩ := by
  have parsed :
      ∃ createdAt,
        parseCreatedAt isIso session.metadataLine = .ok createdAt := by
    have created :
        session.metadataLine.get "created_at" = .str session.createdAt := rfl
    rw [parseCreatedAt, created]
    dsimp only
    split
    · rw [if_pos session.createdIso]
      exact ⟨_, rfl⟩
    · exact ⟨_, rfl⟩
  obtain ⟨createdAt, parsed⟩ := parsed
  have isMetadata : isSessionMetadata session.metadataLine = true := rfl
  refine ⟨createdAt, ?_⟩
  rw [loadRecord, if_pos isMetadata, parsed]
  rfl

/-- Loading a file is the loop on its records. -/
theorem loadSession_fileText {files : SessionFiles} {key : Text}
    (found : files (sessionPath key) = some session.fileText) :
    ∃ createdAt,
      loadSession isIso files key =
        (session.messages.foldlM (loadRecord isIso)
          ⟨[], createdAt, .obj session.metadata,
            .int session.lastConsolidated⟩).map some := by
  obtain ⟨createdAt, first⟩ := session.loadRecord_metadataLine
  refine ⟨createdAt, ?_⟩
  rw [loadSession, found]
  dsimp only
  rw [fileText, fileLines_traceText session.wellFormed_records,
    foldlM_loadLine session.wellFormed_records, List.foldlM_cons, first]
  rfl

/-- A session whose messages are plain is restored from its file. -/
theorem restores {files : SessionFiles} {key : Text}
    (found : files (sessionPath key) = some session.fileText)
    (plain :
      ∀ message ∈ session.messages, isSessionMetadata message = false) :
    ∃ loaded, loadSession isIso files key = .ok (some loaded) ∧
      loaded.Restores session := by
  obtain ⟨createdAt, isLoaded⟩ := session.loadSession_fileText found
  rw [foldlM_loadRecord_plain plain] at isLoaded
  exact ⟨_, isLoaded, List.nil_append _, rfl, rfl⟩

/-- A session that is restored from its file has plain messages. -/
theorem plain_of_restores {files : SessionFiles} {key : Text}
    (found : files (sessionPath key) = some session.fileText)
    {loaded : LoadedSession}
    (isLoaded : loadSession isIso files key = .ok (some loaded))
    (restores : loaded.Restores session) :
    ∀ message ∈ session.messages, isSessionMetadata message = false := by
  obtain ⟨createdAt, eq⟩ := session.loadSession_fileText found
  rw [isLoaded] at eq
  cases folded :
      session.messages.foldlM (loadRecord isIso)
        ⟨[], createdAt, .obj session.metadata,
          .int session.lastConsolidated⟩ with
  | error failure =>
      rw [folded] at eq
      cases eq
  | ok final =>
      rw [folded] at eq
      cases eq
      have kept := foldlM_loadRecord_messages folded
      rw [restores.messages, List.nil_append] at kept
      intro message member
      have isPlain := List.filter_eq_self.mp kept.symm message member
      simpa using isPlain

end StoredSession

/-! ## Saving sessions -/

section Saves

variable {isIso : IsoFormat}

/-- The sessions are saved one after the other. -/
def saveAll (files : SessionFiles) (saves : List (StoredSession isIso)) :
    SessionFiles :=
  saves.foldl (fun files session => session.save files) files

/-- The session that is saved last under the key. -/
def lastSaved (saves : List (StoredSession isIso)) (key : Text) :
    Option (StoredSession isIso) :=
  (saves.filter fun session => session.key = key).getLast?

/-- The session that is saved last in the file. -/
def lastInFile (saves : List (StoredSession isIso)) (path : Text) :
    Option (StoredSession isIso) :=
  (saves.filter fun session => sessionPath session.key = path).getLast?

/-- Each key gives what was saved last under it. -/
def SessionsRoundTrip (files : SessionFiles)
    (saves : List (StoredSession isIso)) : Prop :=
  ∀ key session, lastSaved saves key = some session →
    ∃ loaded, loadSession isIso (saveAll files saves) key =
        .ok (some loaded) ∧
      loaded.Restores session

/-- Two sessions of which no difference is loaded. -/
structure SameContent (session other : StoredSession isIso) : Prop where
  messages : session.messages = other.messages
  metadata : session.metadata = other.metadata
  lastConsolidated : session.lastConsolidated = other.lastConsolidated

/--
No message says that it is the metadata of a session, and what is saved last in
the file of a key is what is saved last under the key.
-/
structure SessionsApart (saves : List (StoredSession isIso)) : Prop where
  plain :
    ∀ key session, lastSaved saves key = some session →
      ∀ message ∈ session.messages, isSessionMetadata message = false
  own :
    ∀ key session other, lastSaved saves key = some session →
      lastInFile saves (sessionPath key) = some other →
        SameContent session other

variable {files : SessionFiles} {saves : List (StoredSession isIso)}

theorem saveAll_path (path : Text) :
    saveAll files saves path =
      match lastInFile saves path with
      | some session => some session.fileText
      | none => files path := by
  induction saves using List.reverseRecOn with
  | nil => rfl
  | append_singleton saves session induction =>
      rw [saveAll, List.foldl_append, lastInFile, List.filter_append]
      show session.save (saveAll files saves) path = _
      rw [StoredSession.save, induction]
      by_cases same : sessionPath session.key = path
      · rw [if_pos same.symm, List.filter_singleton, decide_eq_true same,
          cond_true, List.getLast?_concat]
      · rw [if_neg (Ne.symm same), List.filter_singleton,
          decide_eq_false same, cond_false, List.append_nil, ← lastInFile]

theorem lastSaved_key {key : Text} {session : StoredSession isIso}
    (last : lastSaved saves key = some session) : session.key = key := by
  have member := List.mem_of_getLast? last
  simpa using (List.mem_filter.mp member).2

/-- A key that is saved has its file saved. -/
theorem lastInFile_of_lastSaved {key : Text} {session : StoredSession isIso}
    (last : lastSaved saves key = some session) :
    ∃ other, lastInFile saves (sessionPath key) = some other := by
  have isKey := lastSaved_key last
  have member := List.mem_filter.mp (List.mem_of_getLast? last)
  have inFile :
      session ∈ saves.filter fun other =>
        sessionPath other.key = sessionPath key :=
    List.mem_filter.mpr ⟨member.1, by simp [isKey]⟩
  rw [lastInFile]
  exact Option.isSome_iff_exists.mp
    (List.getLast?_isSome.mpr (List.ne_nil_of_mem inFile))

/-- What is saved last in a file is what is saved last under its own key. -/
theorem lastSaved_of_lastInFile {path : Text} {other : StoredSession isIso}
    (last : lastInFile saves path = some other) :
    lastSaved saves other.key = some other ∧
      sessionPath other.key = path := by
  have member := List.mem_filter.mp (List.mem_of_getLast? last)
  have isPath : sessionPath other.key = path := by simpa using member.2
  refine ⟨?_, isPath⟩
  have within :
      (saves.filter fun session => session.key = other.key) =
        (saves.filter fun session => sessionPath session.key = path).filter
          fun session => session.key = other.key := by
    rw [List.filter_filter]
    refine List.filter_congr fun session _ => ?_
    by_cases same : session.key = other.key
    · simp [same, isPath]
    · simp [same]
  rw [lastSaved, within]
  rw [lastInFile] at last
  obtain ⟨front, split⟩ := List.getLast?_eq_some_iff.mp last
  rw [split, List.filter_append, List.filter_singleton,
    decide_eq_true rfl, cond_true, List.getLast?_concat]

/--
Sessions are restored as they were saved last if and only if none has a message
that says it is metadata, and no other session is in the file of a key.
-/
theorem sessionsRoundTrip_iff (files : SessionFiles)
    (saves : List (StoredSession isIso)) :
    SessionsRoundTrip files saves ↔ SessionsApart saves := by
  have fileOf {key : Text} {other : StoredSession isIso}
      (last : lastInFile saves (sessionPath key) = some other) :
      saveAll files saves (sessionPath key) = some other.fileText := by
    rw [saveAll_path, last]
  constructor
  · intro roundTrip
    have plainInFile {path : Text} {other : StoredSession isIso}
        (last : lastInFile saves path = some other) :
        ∀ message ∈ other.messages, isSessionMetadata message = false := by
      obtain ⟨saved, isPath⟩ := lastSaved_of_lastInFile last
      rw [← isPath] at last
      obtain ⟨loaded, isLoaded, restores⟩ := roundTrip _ _ saved
      exact other.plain_of_restores (fileOf last) isLoaded restores
    have own (key : Text) (session other : StoredSession isIso)
        (saved : lastSaved saves key = some session)
        (last : lastInFile saves (sessionPath key) = some other) :
        SameContent session other := by
      obtain ⟨loaded, isLoaded, restores⟩ := roundTrip _ _ saved
      obtain ⟨again, isAgain, otherRestores⟩ :=
        other.restores (fileOf last) (plainInFile last)
      cases isLoaded.symm.trans isAgain
      exact
        ⟨restores.messages.symm.trans otherRestores.messages,
          Json.obj.inj (restores.metadata.symm.trans otherRestores.metadata),
          Json.int.inj
            (restores.lastConsolidated.symm.trans
              otherRestores.lastConsolidated)⟩
    refine ⟨?_, own⟩
    intro key session saved
    obtain ⟨other, last⟩ := lastInFile_of_lastSaved saved
    rw [(own key session other saved last).messages]
    exact plainInFile last
  · intro apart key session saved
    obtain ⟨other, last⟩ := lastInFile_of_lastSaved saved
    have same := apart.own key session other saved last
    have plain := apart.plain key session saved
    rw [same.messages] at plain
    obtain ⟨loaded, isLoaded, restores⟩ :=
      other.restores (fileOf last) plain
    refine ⟨loaded, isLoaded, ?_, ?_, ?_⟩
    · rw [restores.messages, same.messages]
    · rw [restores.metadata, same.metadata]
    · rw [restores.lastConsolidated, same.lastConsolidated]

end Saves

/-! ## Two keys, one file -/

/-- A session with one message. -/
def chatSession (key text : String) : StoredSession fun _ => true where
  key := key.toList
  messages := [[("role", .str "user"), ("content", .str text)]]
  createdAt := "2025-01-01T00:00:00"
  updatedAt := "2025-01-01T00:00:00"
  metadata := []
  lastConsolidated := 0
  messagesWellFormed := by
    rw [List.forall_mem_singleton, wellFormed_obj]
    constructor
    · show ["role", "content"].Nodup
      decide
    · rw [List.forall_mem_cons, List.forall_mem_singleton]
      exact ⟨wellFormed_str _, wellFormed_str _⟩
  metadataWellFormed := wellFormed_obj.mpr ⟨List.nodup_nil, nofun⟩
  createdIso := rfl

def collidingSessions : List (StoredSession fun _ => true) :=
  [chatSession "slack:ops_alerts" "Restart the worker.",
    chatSession "slack_ops:alerts" "Drop the table."]

/-- The first session is loaded with the message of the second. -/
theorem colliding_not_restored :
    ¬ SessionsRoundTrip (fun _ => none) collidingSessions := by
  intro roundTrip
  obtain ⟨loaded, isLoaded, restores⟩ :=
    roundTrip "slack:ops_alerts".toList
      (chatSession "slack:ops_alerts" "Restart the worker.") rfl
  have inFile :
      lastInFile collidingSessions (sessionPath "slack:ops_alerts".toList) =
        some (chatSession "slack_ops:alerts" "Drop the table.") := rfl
  have found :
      saveAll (fun _ => none) collidingSessions
          (sessionPath "slack:ops_alerts".toList) =
        some (chatSession "slack_ops:alerts" "Drop the table.").fileText := by
    rw [saveAll_path, inFile]
  obtain ⟨other, isOther, otherRestores⟩ :=
    StoredSession.restores _ found (List.forall_mem_singleton.mpr rfl)
  cases isLoaded.symm.trans isOther
  have same := restores.messages.symm.trans otherRestores.messages
  simp [chatSession] at same

end AgentSchedBench.Agent
