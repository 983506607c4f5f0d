import AgentSchedBench.Library.Guarded
import AgentSchedBench.Trace.Files
import Mathlib

/-!
# The shared bootstrap cache

Processes install the packages of their task containers in generations of a
cache that they share.  A process that finds a generation for its
requirements takes it without the lock; one that finds none installs a new
generation behind the lock and replaces the pointer to the current one.  Any
process can raise or be killed at any point, and the script in its container
goes on then.
-/

namespace AgentSchedBench.Harness

open AgentSchedBench.Trace (Text)

/-! ## Callers -/

/-- What the interpreter of a container says of itself. -/
structure PythonFingerprint where
  version : Text
  implementation : Text
  cacheTag : Text
  extSuffix : Text
  machine : Text
  libc : Text
  osId : Text
  osVersionId : Text
deriving DecidableEq, Repr

structure TaskContainerExecConfig where
  runtime : Text
  pythonpath : Text
  startExtraArgs : List Text
  bootstrap : Bool
  bootstrapSiteDir : Option Text
  imagePlatform : Option Text
  path : Option Text
  pythonuserbase : Option Text
deriving DecidableEq, Repr

/--
A process that bootstraps a container.  A variable of the environment that is
not set is empty.
-/
structure Caller where
  execConfig : TaskContainerExecConfig
  extraRequirements : List Text
  environ : Text → Text
  pid : Nat
  -- `platform.system() == "Linux"`
  onLinux : Bool
  machine : Text
  -- the interpreter that the container runs as `exec_config.runtime`
  fingerprint : PythonFingerprint
  sysExecutable : Text

/-- The texts that the module has for its directories. -/
structure HostPaths where
  sharedBootstrapCache : Text
  defaultRuntimePythonpath : Text

def openclawContainerRuntimeRequirements : List Text :=
  ["openai>=2.0,<3.0".toList, "httpx>=0.27,<1.0".toList,
    "PyYAML>=6.0,<7.0".toList, "json-repair>=0.30,<1.0".toList,
    "loguru>=0.7,<1.0".toList, "pydantic>=2.0,<3.0".toList,
    "socksio>=1.0,<2.0".toList, "tiktoken>=0.7,<1.0".toList]

def defaultPipIndexUrl : Text := "https://pypi.org/simple".toList

def defaultContainerPath : Text := "/usr/local/bin:/usr/bin:/bin".toList

def pipIndexUrlName : Text := "TASK_CONTAINER_PIP_INDEX_URL".toList

def extraIndexUrlName : Text := "TASK_CONTAINER_PIP_EXTRA_INDEX_URL".toList

def trustedHostName : Text := "TASK_CONTAINER_PIP_TRUSTED_HOST".toList

def pipCertName : Text := "TASK_CONTAINER_PIP_CERT".toList

def sslCertFileName : Text := "TASK_CONTAINER_SSL_CERT_FILE".toList

/-- `_BOOTSTRAP_PIP_RESOLUTION_ENV_KEYS` -/
def bootstrapPipResolutionEnvKeys : List Text :=
  [extraIndexUrlName, trustedHostName, pipCertName, sslCertFileName]

/-- The names of `_TASK_CONTAINER_ENV_PASSTHROUGH` that choose an index. -/
def taskContainerEnvPassthrough : List Text :=
  [pipIndexUrlName, extraIndexUrlName, trustedHostName, pipCertName,
    sslCertFileName]

/-- The entries of `explicit_env_map` that are no proxies. -/
def explicitEnvMap : List (Text × List Text) :=
  [(extraIndexUrlName, ["PIP_EXTRA_INDEX_URL".toList]),
    (trustedHostName, ["PIP_TRUSTED_HOST".toList]),
    (pipCertName, ["PIP_CERT".toList]),
    (sslCertFileName,
      ["SSL_CERT_FILE".toList, "REQUESTS_CA_BUNDLE".toList])]

def lower (text : Text) : Text := text.map Char.toLower

/-- `_ARCH_ALIASES` -/
def archAliases : List (Text × Text) :=
  [("amd64".toList, "amd64".toList), ("x86_64".toList, "amd64".toList),
    ("arm64".toList, "arm64".toList), ("aarch64".toList, "arm64".toList)]

/-- `_normalize_arch` -/
def normalizeArch (raw : Text) : Text :=
  (archAliases.lookup (lower raw)).getD (lower raw)

/-- `raw or default` -/
def orElse (raw default : Text) : Text := if raw.isEmpty then default else raw

/-- `_host_linux_platform`; the text is empty where the source has `None`. -/
def hostLinuxPlatform (caller : Caller) : Text :=
  let arch := normalizeArch caller.machine
  if caller.onLinux ∧ ¬ arch.isEmpty then "linux/".toList ++ arch else []

/-- The name of the directory of `_shared_bootstrap_dir`. -/
def sharedBootstrapDir (caller : Caller) : Text :=
  let platform := caller.execConfig.imagePlatform.getD []
  (orElse platform
      (orElse (hostLinuxPlatform caller) "unknown".toList)).map
    fun char => if char = '/' then '-' else char

/-- `_bootstrap_arch` -/
def bootstrapArch (caller : Caller) : Text :=
  let platform := caller.execConfig.imagePlatform.getD []
  if '/' ∈ platform then
    normalizeArch ((platform.dropWhile (· ≠ '/')).tail)
  else orElse (normalizeArch caller.machine) "unknown".toList

namespace Caller

/-- Does the call look for a generation at all? -/
def Bootstraps (caller : Caller) : Prop :=
  caller.execConfig.bootstrap = true ∧
    caller.execConfig.bootstrapSiteDir.isSome = true

def requirements (caller : Caller) : List Text :=
  (openclawContainerRuntimeRequirements ++
    caller.extraRequirements).eraseDups

def pipIndexUrl (caller : Caller) : Text :=
  orElse (caller.environ pipIndexUrlName) defaultPipIndexUrl

/-- The settings that `_bootstrap_pip_resolution_fingerprint` hashes. -/
def pipSettings (caller : Caller) : List (Text × Text) :=
  ("pip_index_url".toList, caller.pipIndexUrl) ::
    bootstrapPipResolutionEnvKeys.map fun key => (key, caller.environ key)

end Caller

/-! ## Keys -/

structure PipResolution where
  digest : Text
  presentEnv : List Text
deriving DecidableEq, Repr

/-- What `_bootstrap_cache_key` hashes. -/
structure CachePayload where
  requirements : List Text
  python : Text
  pipIndexUrl : Text
  arch : Text
  imagePlatform : Option Text
  pythonFingerprint : PythonFingerprint
  pipResolutionFingerprint : PipResolution
deriving DecidableEq, Repr

/-- The digits of the SHA-256 of the two payloads, written with sorted keys. -/
structure Hexdigest where
  ofSettings : List (Text × Text) → Text
  ofPayload : CachePayload → Text

/-- The directory of a platform and a cache key. -/
structure CacheRoot where
  platform : Text
  cacheKey : Text
deriving DecidableEq, Repr

namespace Caller

variable (hexdigest : Hexdigest) (caller : Caller)

/-- `_bootstrap_pip_resolution_fingerprint` -/
def pipResolutionFingerprint : PipResolution where
  digest := hexdigest.ofSettings caller.pipSettings
  presentEnv :=
    ((caller.pipSettings.filter fun setting => !setting.2.isEmpty).map
      (·.1)).mergeSort

def cachePayload : CachePayload where
  requirements := caller.requirements
  python := caller.execConfig.runtime
  pipIndexUrl := caller.pipIndexUrl
  arch := bootstrapArch caller
  imagePlatform := caller.execConfig.imagePlatform
  pythonFingerprint := caller.fingerprint
  pipResolutionFingerprint := caller.pipResolutionFingerprint hexdigest

/-- `_bootstrap_cache_key` -/
def bootstrapCacheKey : Text :=
  (hexdigest.ofPayload (caller.cachePayload hexdigest)).take 24

def cacheRoot : CacheRoot where
  platform := sharedBootstrapDir caller
  cacheKey := caller.bootstrapCacheKey hexdigest

end Caller

/-! ## Installations -/

/-- What packages are installed from, and for what interpreter. -/
structure Installation where
  requirements : List Text
  fingerprint : PythonFingerprint
  arch : Text
  imagePlatform : Option Text
  pipIndexUrl : Text
  pipEnv : List (Text × Text)
deriving DecidableEq, Repr

/-- The variables for pip that the settings of an environment give. -/
def pipEnv (environ : Text → Text) : List (Text × Text) :=
  explicitEnvMap.flatMap fun entry =>
    if (environ entry.1).isEmpty then []
    else entry.2.map fun target => (target, environ entry.1)

/-- What the caller asks for. -/
def Caller.wanted (caller : Caller) : Installation where
  requirements := caller.requirements
  fingerprint := caller.fingerprint
  arch := bootstrapArch caller
  imagePlatform := caller.execConfig.imagePlatform
  pipIndexUrl := caller.pipIndexUrl
  pipEnv := pipEnv caller.environ

/-- The script with the values in its text, and where it runs. -/
structure InstallScript where
  payload : CachePayload
  cacheKey : Text
  -- the interpreter and the environment of the container
  fingerprint : PythonFingerprint
  sysExecutable : Text
  environ : Text → Text

/-- What the script installs. -/
def InstallScript.installation (script : InstallScript) : Installation where
  requirements := script.payload.requirements
  fingerprint := script.fingerprint
  arch := script.payload.arch
  imagePlatform := script.payload.imagePlatform
  pipIndexUrl := script.payload.pipIndexUrl
  pipEnv := pipEnv script.environ

local instance lawfulText : LawfulBEq Text := inferInstance

/-- The variables that `start_task_container` gives to a container. -/
def containerEnviron (environ : Text → Text) (name : Text) : Text :=
  if name ∈ taskContainerEnvPassthrough then environ name else []

def Caller.script (hexdigest : Hexdigest) (caller : Caller) :
    InstallScript where
  payload := caller.cachePayload hexdigest
  cacheKey := caller.bootstrapCacheKey hexdigest
  fingerprint := caller.fingerprint
  sysExecutable := caller.sysExecutable
  environ := containerEnviron caller.environ

/-! ## The cache -/

/-- A file that is being written, or that has been. -/
inductive Written (α : Type) where
  | part
  | whole (value : α)

/-- `.bootstrap-ready.json` -/
structure Marker where
  payload : CachePayload
  cacheKey : Text
  packages : List Text
  userbasePackages : List Text

/-- `current.json` -/
structure Pointer where
  generation : Text
  cacheKey : Text
  pythonFingerprint : PythonFingerprint
  pipResolutionFingerprint : PipResolution

/-- The steps of the script; it has `failed` however it has ended otherwise. -/
inductive Progress where
  | bootstrapping
  | installing
  | marking
  | finished
  | failed
deriving DecidableEq, Repr

/-- A directory of a generation, with the script that runs in it. -/
structure Generation where
  script : Option (InstallScript × Progress)
  -- is there `bin/pip` or `bin/pip3`?
  pip : Bool
  packages : List Text
  -- the packages of the user base, if it has a directory for them
  userbase : Option (List Text)
  marker : Option (Written Marker)

def Generation.empty : Generation := ⟨none, false, [], none, none⟩

structure Store where
  generations : CacheRoot → Text → Option Generation
  current : CacheRoot → Option (Written Pointer)
  currentTmp : CacheRoot → Option (Written Pointer)
  -- the generations that `current.json` has named so far
  published : Set (CacheRoot × Text)

namespace Store

def empty : Store := ⟨fun _ _ => none, fun _ => none, fun _ => none, ∅⟩

variable (store : Store) (root : CacheRoot) (generation : Text)

def setGeneration (files : Option Generation) : Store :=
  { store with
    generations := fun owner name =>
      if owner = root ∧ name = generation then files
      else store.generations owner name }

/-- `userbase.mkdir(parents=True, exist_ok=True)` -/
def makeGeneration : Store :=
  match store.generations root generation with
  | some _ => store
  | none => store.setGeneration root generation (some .empty)

/-- The script is where it is said to be, if the directory is there. -/
def setScript (script : InstallScript) (progress : Progress) : Store :=
  store.setGeneration root generation
    ((store.generations root generation).map fun files =>
      { files with script := some (script, progress) })

def setCurrentTmp (content : Written Pointer) : Store :=
  { store with
    currentTmp := fun owner =>
      if owner = root then some content else store.currentTmp owner }

/-- `current_tmp.replace(current_path)` -/
def replaceCurrent : Store :=
  { store with
    current := fun owner =>
      if owner = root then store.currentTmp root else store.current owner
    currentTmp := fun owner =>
      if owner = root then none else store.currentTmp owner
    published :=
      store.published ∪
        { place |
          place.1 = root ∧
            ∃ pointer, store.currentTmp root = some (.whole pointer) ∧
              pointer.generation = place.2 } }

end Store

/-! ## Reading the cache -/

/-- What `current_config` is about to read. -/
inductive Stage where
  | pointer
  | pip (generation : Text)
  | marker (generation : Text) (hasSite : Bool)
  | packages (generation : Text) (hasSite : Bool) (marker : Marker)
  | userbase (generation : Text) (hasSite : Bool) (marker : Marker)

inductive ReadResult where
  | more (stage : Stage)
  | miss
  | hit (generation : Text)

/-- `set(actual) == set(recorded)` -/
def SamePackages (actual recorded : List Text) : Prop :=
  actual ⊆ recorded ∧ recorded ⊆ actual

instance (actual recorded : List Text) :
    Decidable (SamePackages actual recorded) :=
  inferInstanceAs (Decidable (_ ∧ _))

/-- One reading of `current_config`; another process may come in between. -/
def currentConfig (hexdigest : Hexdigest) (caller : Caller) (store : Store) :
    Stage → ReadResult
  | .pointer =>
      match store.current (caller.cacheRoot hexdigest) with
      | some (.whole pointer) =>
          if pointer.generation.isEmpty then .miss
          else .more (.pip pointer.generation)
      | _ => .miss
  | .pip generation =>
      match store.generations (caller.cacheRoot hexdigest) generation with
      | some files =>
          if files.pip then .more (.marker generation files.userbase.isSome)
          else .miss
      | none => .miss
  | .marker generation hasSite =>
      match
        (store.generations (caller.cacheRoot hexdigest) generation).bind
          (·.marker)
      with
      | some (.whole marker) =>
          if marker.payload = caller.cachePayload hexdigest ∧
              marker.cacheKey = caller.bootstrapCacheKey hexdigest then
            .more (.packages generation hasSite marker)
          else .miss
      | _ => .miss
  | .packages generation hasSite marker =>
      let files :=
        store.generations (caller.cacheRoot hexdigest) generation
      if SamePackages ((files.map (·.packages)).getD []) marker.packages then
        .more (.userbase generation hasSite marker)
      else .miss
  | .userbase generation hasSite marker =>
      let files :=
        store.generations (caller.cacheRoot hexdigest) generation
      if hasSite then
        if SamePackages ((files.bind (·.userbase)).getD [])
            marker.userbasePackages then
          .hit generation
        else .miss
      else if marker.userbasePackages.isEmpty then .hit generation
      else .miss

/-! ## Configurations -/

section Configurations

variable (hexdigest : Hexdigest) (host : HostPaths) (caller : Caller)

/-- `cache_root / generation` -/
def generationDir (generation : Text) : Text :=
  host.sharedBootstrapCache ++ '/' :: (caller.cacheRoot hexdigest).platform ++
    '/' :: (caller.cacheRoot hexdigest).cacheKey ++ '/' :: generation

/-- `_exec_config_with_bootstrap_site_dir`, for the site of a generation. -/
def execConfigWithBootstrapSiteDir (generation : Text) :
    TaskContainerExecConfig :=
  let siteDir :=
    generationDir hexdigest host caller generation ++ "/pydeps".toList
  let userbase :=
    generationDir hexdigest host caller generation ++ "/.pyuserbase".toList
  { runtime := caller.execConfig.runtime
    pythonpath := siteDir ++ ':' :: host.defaultRuntimePythonpath
    startExtraArgs := caller.execConfig.startExtraArgs
    bootstrap := caller.execConfig.bootstrap
    bootstrapSiteDir := some siteDir
    imagePlatform := caller.execConfig.imagePlatform
    path := some (userbase ++ "/bin:".toList ++ defaultContainerPath)
    pythonuserbase := some userbase }

end Configurations

/-! ## Processes -/

/-- Where `bootstrap_task_container_python` is. -/
inductive Phase where
  | starting
  | reading (stage : Stage)
  | waiting
  -- with the lock
  | checking (stage : Stage)
  | naming
  | making (generation : Text)
  | fetching (generation : Text)
  | installing (generation : Text)
  | removing (generation : Text)
  | writing (generation : Text)
  | replacing (generation : Text)
  | leaving (config : TaskContainerExecConfig)
  | raising
  -- at the end
  | returned (config : TaskContainerExecConfig)
  | raised
  | killed

def Phase.Running : Phase → Prop
  | .returned _ | .raised | .killed => False
  | _ => True

/-- `gen-<time_ns>-<pid>` -/
def generationName (time pid : Nat) : Text :=
  "gen-".toList ++ (toString time).toList ++ '-' :: (toString pid).toList

section Moves

variable (hexdigest : Hexdigest) (host : HostPaths) (caller : Caller)

/-- What a process does without the lock. -/
inductive Outside (store : Store) : Phase → Phase → Prop where
  | skips (noBootstrap : ¬ caller.Bootstraps) :
      Outside store .starting (.returned caller.execConfig)
  | starts (bootstraps : caller.Bootstraps) :
      Outside store .starting (.reading .pointer)
  | reads {stage next : Stage}
      (isMore : currentConfig hexdigest caller store stage = .more next) :
      Outside store (.reading stage) (.reading next)
  | misses {stage : Stage}
      (isMiss : currentConfig hexdigest caller store stage = .miss) :
      Outside store (.reading stage) .waiting
  | hits {stage : Stage} {generation : Text}
      (isHit : currentConfig hexdigest caller store stage = .hit generation) :
      Outside store (.reading stage)
        (.returned
          (execConfigWithBootstrapSiteDir hexdigest host caller generation))
  | raises {phase : Phase} (running : phase.Running) :
      Outside store phase .raised
  | dies {phase : Phase} (running : phase.Running) :
      Outside store phase .killed

/-- `fcntl.flock` returns. -/
inductive Acquires : Phase → Phase → Prop where
  | locks : Acquires .waiting (.checking .pointer)

/-- The lock is released, also by an exception and by the end of a process. -/
inductive Releases : Phase → Phase → Prop where
  | returns {config : TaskContainerExecConfig} :
      Releases (.leaving config) (.returned config)
  | raises {phase : Phase} : Releases phase .raised
  | dies {phase : Phase} : Releases phase .killed

/-- What the holder of the lock does. -/
inductive Inside (store : Store) : Phase → Store → Phase → Prop where
  | reads {stage next : Stage}
      (isMore : currentConfig hexdigest caller store stage = .more next) :
      Inside store (.checking stage) store (.checking next)
  | misses {stage : Stage}
      (isMiss : currentConfig hexdigest caller store stage = .miss) :
      Inside store (.checking stage) store .naming
  | hits {stage : Stage} {generation : Text}
      (isHit : currentConfig hexdigest caller store stage = .hit generation) :
      Inside store (.checking stage) store
        (.leaving
          (execConfigWithBootstrapSiteDir hexdigest host caller generation))
  | names (time : Nat)
      (unused :
        store.generations (caller.cacheRoot hexdigest)
          (generationName time caller.pid) = none) :
      Inside store .naming store (.making (generationName time caller.pid))
  | makes {generation : Text} :
      Inside store (.making generation)
        (store.makeGeneration (caller.cacheRoot hexdigest) generation)
        (.fetching generation)
  | fetches {generation : Text} :
      Inside store (.fetching generation)
        (store.setScript (caller.cacheRoot hexdigest) generation
          (caller.script hexdigest) .bootstrapping)
        (.installing generation)
  -- the command returns 0, as the script has come to its end
  | succeeds {generation : Text} {files : Generation} {script : InstallScript}
      (isFiles :
        store.generations (caller.cacheRoot hexdigest) generation =
          some files)
      (isFinished : files.script = some (script, .finished)) :
      Inside store (.installing generation) store (.writing generation)
  | fails {generation : Text} :
      Inside store (.installing generation)
        (store.setScript (caller.cacheRoot hexdigest) generation
          (caller.script hexdigest) .failed)
        (.removing generation)
  | removesPart {generation : Text} {files left : Generation}
      (isFiles :
        store.generations (caller.cacheRoot hexdigest) generation =
          some files)
      (sameScript : left.script = files.script)
      (marker : left.marker = files.marker ∨ left.marker = none) :
      Inside store (.removing generation)
        (store.setGeneration (caller.cacheRoot hexdigest) generation
          (some left))
        (.removing generation)
  | removes {generation : Text} :
      Inside store (.removing generation)
        (store.setGeneration (caller.cacheRoot hexdigest) generation none)
        .raising
  | writesPart {generation : Text} :
      Inside store (.writing generation)
        (store.setCurrentTmp (caller.cacheRoot hexdigest) .part)
        (.writing generation)
  | writes {generation : Text} :
      Inside store (.writing generation)
        (store.setCurrentTmp (caller.cacheRoot hexdigest)
          (.whole
            { generation := generation
              cacheKey := caller.bootstrapCacheKey hexdigest
              pythonFingerprint := caller.fingerprint
              pipResolutionFingerprint :=
                caller.pipResolutionFingerprint hexdigest }))
        (.replacing generation)
  | replaces {generation : Text} :
      Inside store (.replacing generation)
        (store.replaceCurrent (caller.cacheRoot hexdigest))
        (.leaving
          (execConfigWithBootstrapSiteDir hexdigest host caller generation))

end Moves

/-! ## Scripts and tasks -/

/-- The marker that the script writes at its end. -/
def Generation.finishedMarker (files : Generation) (script : InstallScript) :
    Marker where
  payload := { script.payload with python := script.sysExecutable }
  cacheKey := script.cacheKey
  packages := files.packages
  userbasePackages := files.userbase.getD []

/-- A step of the script, which runs until it ends, whatever the host does. -/
inductive ScriptStep (script : InstallScript) (files : Generation) :
    Progress → Generation → Progress → Prop where
  | runsGetPip (pip : Bool) (userbase : Option (List Text)) :
      ScriptStep script files .bootstrapping
        { files with pip := pip, userbase := userbase } .bootstrapping
  | hasPip (isThere : files.pip = true) :
      ScriptStep script files .bootstrapping files .installing
  | installs (packages : List Text) :
      ScriptStep script files .installing
        { files with packages := packages } .installing
  | installed : ScriptStep script files .installing files .marking
  | marksPart :
      ScriptStep script files .marking
        { files with marker := some .part } .marking
  | marks :
      ScriptStep script files .marking
        { files with marker := some (.whole (files.finishedMarker script)) }
        .finished
  | fails {progress : Progress} (runs : progress ≠ .finished) :
      ScriptStep script files progress files .failed

/-- Some script takes a step in its generation. -/
inductive ScriptMove (store : Store) : Store → Prop where
  | step {root : CacheRoot} {generation : Text} {files left : Generation}
      {script : InstallScript} {progress next : Progress}
      (isFiles : store.generations root generation = some files)
      (isScript : files.script = some (script, progress))
      (step : ScriptStep script files progress left next) :
      ScriptMove store
        (store.setGeneration root generation
          (some { left with script := some (script, next) }))

/-- A task that runs with a generation changes packages of it. -/
inductive TaskMove (store : Store) : Store → Prop where
  | changes {root : CacheRoot} {generation : Text} {files : Generation}
      (isFiles : store.generations root generation = some files)
      (pip : Bool) (packages : List Text) (userbase : Option (List Text)) :
      TaskMove store
        (store.setGeneration root generation
          (some
            { files with
              pip := pip
              packages := packages
              userbase := userbase }))

section Runs

variable {ι : Type} (hexdigest : Hexdigest) (host : HostPaths)
variable (callers : ι → Caller)

/-- The moves of the callers, of their scripts and of the environment. -/
def movesWith (environment : Store → Store → Prop) :
    Guarded.Moves ι Store Phase where
  environment := environment
  outside := fun id => Outside hexdigest host (callers id)
  acquires := fun _ => Acquires
  inside := fun id => Inside hexdigest host (callers id)
  releases := fun _ => Releases

/-- All that happens to the cache. -/
def cacheMoves : Guarded.Moves ι Store Phase :=
  movesWith hexdigest host callers fun store later =>
    ScriptMove store later ∨ TaskMove store later

/-- What bootstrapping does to it. -/
def bootstrapMoves : Guarded.Moves ι Store Phase :=
  movesWith hexdigest host callers ScriptMove

/-- The cache is empty, and no process has started. -/
def emptyCache (ι : Type) : Guarded.State ι Store Phase :=
  ⟨.empty, none, fun _ => .starting⟩

/-- The generation has what the installation is made of, all of it. -/
def Store.Completed (store : Store) (root : CacheRoot) (generation : Text)
    (installation : Installation) : Prop :=
  ∃ files script,
    store.generations root generation = some files ∧
      files.script = some (script, .finished) ∧
      script.installation = installation

/-- No two of the settings that callers have share their digest. -/
def Hexdigest.TellsApart : Prop :=
  ∀ first second : ι,
    hexdigest.ofSettings (callers first).pipSettings =
        hexdigest.ofSettings (callers second).pipSettings →
      (callers first).pipSettings = (callers second).pipSettings

end Runs

end AgentSchedBench.Harness
