import AgentSchedBench.Library.Patterns
import AgentSchedBench.Trace.Files

/-!
# Patch extraction

The patch of a run is the one that the agent has submitted, the diff of the
container or of the workspace, or what can be found in the last reply.  A
command is given by its end, and what it prints comes through a pipe in text
mode.
-/

namespace AgentSchedBench.Agent

open Trace (Text strip)
open TextLines (translateNewlines)
open Patterns

/-! ## Commands -/

inductive RunError where
  | timeoutExpired
  | otherSubprocessError
  | osError
  | other
deriving DecidableEq, Repr

namespace RunError

/-- `except (OSError, subprocess.SubprocessError)` -/
def isExpected : RunError → Bool
  | timeoutExpired | otherSubprocessError | osError => true
  | other => false

end RunError

inductive RunEnd where
  | completed (returncode : Int) (printed : Text)
  | raised (error : RunError)
deriving DecidableEq, Repr

/-- `patch.txt`, printed by a command or read from its path. -/
inductive Submission where
  | byRun (cat : RunEnd)
  | byPath (file : Option Text)

/-- `content.startswith("diff --git")` -/
def startsDiff (content : Text) : Bool :=
  "diff --git".toList.isPrefixOf content

def submittedPatch (content : Text) : Text :=
  if startsDiff (content.dropWhile isSpace) then strip content else []

/-- `_read_submitted_patch` -/
def readSubmittedPatch : Submission → Except RunError Text
  | .byRun (.completed returncode printed) =>
      .ok (submittedPatch
        (if returncode = 0 then translateNewlines printed else []))
  | .byRun (.raised error) =>
      if error.isExpected then .ok (submittedPatch []) else .error error
  | .byPath none => .ok []
  | .byPath (some file) => .ok (submittedPatch (translateNewlines file))

/-- `git_diff_excluding`, with the return code and the output of the diff -/
def gitDiffExcluding (add diff : RunEnd) : Except RunError (Int × Text) :=
  let staged : Except RunError Unit :=
    match add with
    | .completed _ _ => .ok ()
    | .raised error =>
        if error = .timeoutExpired then .ok () else .error error
  staged.bind fun _ =>
    match diff with
    | .completed returncode printed =>
        .ok (returncode, translateNewlines printed)
    | .raised error =>
        if error = .timeoutExpired then .ok (124, []) else .error error

/-- `text or None` -/
def orNone (text : Text) : Option Text := if text = [] then none else some text

/-- `_extract_container_patch` -/
def extractContainerPatch (submission : Submission) (config add diff : RunEnd) :
    Except RunError (Option Text) :=
  (readSubmittedPatch submission).bind fun submitted =>
    if submitted ≠ [] then .ok (some submitted)
    else
      match config with
      | .raised error => .error error
      | .completed _ _ =>
          (gitDiffExcluding add diff).map fun result =>
            if result.1 = 0 then orNone (strip result.2) else none

/-! ## Model patch -/

/-- The commands that run in a workspace with a repository. -/
structure WorkspaceRuns where
  add : RunEnd
  diff : RunEnd

/-- `_extract_patch_from_workspace` -/
def extractPatchFromWorkspace :
    Option WorkspaceRuns → Except RunError Text
  | none => .ok []
  | some runs =>
      (gitDiffExcluding runs.add runs.diff).map fun result =>
        if result.1 = 0 then strip result.2 else []

/-- A fence and what may follow it on its line. -/
def fenced (opening : Text) (inner : Pattern) : Pattern :=
  .seq (.letters opening) (.seq (.many isSpace 0 none)
    (.seq (.letters ['\n'])
      (.seq (.group inner) (.letters "\n```".toList))))

/-- Any character, the line feed included. -/
def anyText : Pattern := .fewest fun _ => true

def diffFence : Pattern := fenced "```diff".toList anyText

def plainFence : Pattern :=
  fenced "```".toList (.seq (.letters "diff --git".toList) anyText)

/-- `match.group(1).strip()` -/
def groupPatch (part : Match) : Text := strip (part.inGroup.getD [])

/-- The lines from the first one that begins a diff. -/
def patchFromLines (text : Text) : Text :=
  match (text.splitOn '\n').dropWhile (!startsDiff ·) with
  | [] => []
  | lines => strip (['\n'].intercalate lines)

/-- The patch in a content whose ends have been stripped. -/
def scrapedPatch (text : Text) : Text :=
  if startsDiff text then text
  else
    match diffFence.search text with
    | some part => groupPatch part
    | none =>
        match plainFence.search text with
        | some part => groupPatch part
        | none => patchFromLines text

/-- `_extract_patch_from_content` -/
def extractPatchFromContent : Option Text → Text
  | none => []
  | some content => scrapedPatch (strip content)

/-- The part of a result that its patch is taken from. -/
structure EvalResult where
  content : Option Text
  workspace : Option WorkspaceRuns
  containerModelPatch : Option Text

/-- `model_patch` -/
def EvalResult.modelPatch (result : EvalResult) : Except RunError Text :=
  match result.containerModelPatch.bind orNone with
  | some patch => .ok patch
  | none =>
      (extractPatchFromWorkspace result.workspace).map fun patch =>
        if patch ≠ [] then patch else extractPatchFromContent result.content

end AgentSchedBench.Agent
