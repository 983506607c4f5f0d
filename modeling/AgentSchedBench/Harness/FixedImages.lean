import AgentSchedBench.Trace.Files

/-!
# Derived images

A task runs in an image that is committed from its source image once.  The
name of the derived image is made of the reference of the source, and an image
of that name is taken for the derived one.  Different references can give one
name; that they do not is all that is missing for each name to lead back to
its source, over any sequence of calls, removals and failures.
-/

namespace AgentSchedBench.Harness

open AgentSchedBench.Agent (isSpace)
open AgentSchedBench.Trace (Text strip)

/-! ## Names -/

/-- The character of a slug. -/
def slugChar (char : Char) : Char :=
  if char = '/' ∨ char = ':' ∨ char = '@' then '_' else char

/-- `_image_slug` -/
def imageSlug (sourceImage : Text) : Text := sourceImage.map slugChar

/-- The registry, without the slashes it ends with. -/
def registryOf (registryPrefix : Text) : Text :=
  let stripped := strip registryPrefix
  let bare := (stripped.reverse.dropWhile (· = '/')).reverse
  if bare.isEmpty then "docker.io".toList else bare

/-- `normalize_image_reference`, for the prefix that the environment gives. -/
def normalizeImageReference (registryPrefix image : Text) : Text :=
  if image.isEmpty then []
  else if '/' ∉ image then
    registryOf registryPrefix ++ "/library/".toList ++ image
  else
    let head := image.takeWhile (· ≠ '/')
    if '.' ∈ head ∨ ':' ∈ head ∨ head = "localhost".toList then image
    else registryOf registryPrefix ++ "/".toList ++ image

def fixedImagePrefix : Text := "swebench-fixed-root-".toList

/-- `fixed_image_name_for` -/
def fixedImageNameFor (sourceImage : Text) : Text :=
  fixedImagePrefix ++ imageSlug sourceImage

/-! ## Images and the cache -/

/-- Where an image comes from. -/
inductive ImageOrigin where
  | pulled
  | committedFrom (sourceImage : Text)
deriving DecidableEq, Repr

/-- The executable, the source image and the name of the derived one. -/
structure CacheKey where
  containerExecutable : Text
  sourceImage : Text
  fixedName : Text
deriving DecidableEq, Repr

/-- The images that each executable has, and `_IMAGE_CACHE`. -/
structure ImageState where
  images : Text → Text → Option ImageOrigin
  cache : CacheKey → Option (Text × Nat)

namespace ImageState

def setImage (state : ImageState) (executable image : Text)
    (origin : Option ImageOrigin) : ImageState :=
  { state with
    images := fun owner name =>
      if owner = executable ∧ name = image then origin
      else state.images owner name }

def setCache (state : ImageState) (key : CacheKey)
    (entry : Option (Text × Nat)) : ImageState :=
  { state with
    cache := fun other => if other = key then entry else state.cache other }

end ImageState

/-- How a command ends; one that fails may have had its effect. -/
inductive CommandEnd where
  | done
  | failed (hadEffect : Bool)
deriving DecidableEq, Repr

def CommandEnd.takesEffect : CommandEnd → Bool
  | .done => true
  | .failed hadEffect => hadEffect

inductive ImageError where
  | removal
  | pull
  | inspect
  | build
deriving DecidableEq, Repr

/-- What the container commands of one call do. -/
structure ImageCommands where
  -- does the daemon answer whether an image exists?
  answers : Bool
  answersSource : Bool
  removal : CommandEnd
  -- the pull with its retries
  pull : CommandEnd
  inspectReturns : Bool
  runSucceeds : Bool
  chownSucceeds : Bool
  commit : CommandEnd
  stopReturns : Bool
  elapsed : Nat

/-- `ensure_fixed_image`, with what its commands do. -/
structure EnsureCall where
  sourceImage : Text
  containerExecutable : Text
  fixedImageName : Option Text
  rebuild : Bool
  commands : ImageCommands

/-! ## The functions -/

/-- `remove_image` -/
def removeImage (commands : ImageCommands) (executable image : Text)
    (state : ImageState) : Except ImageError Bool × ImageState :=
  if image.isEmpty ∨ ¬ commands.answers ∨ state.images executable image = none
  then (.ok false, state)
  else
    let removed :=
      if commands.removal.takesEffect then
        state.setImage executable image none
      else state
    if commands.removal = .done then (.ok true, removed)
    else (.error .removal, removed)

/-- `ensure_source_image` -/
def ensureSourceImage (registryPrefix : Text) (commands : ImageCommands)
    (executable sourceImage : Text) (state : ImageState) :
    Except ImageError Unit × ImageState :=
  let image := normalizeImageReference registryPrefix sourceImage
  if image.isEmpty then (.ok (), state)
  else if commands.answersSource ∧ state.images executable image ≠ none then
    (.ok (), state)
  else
    let pulled :=
      if commands.pull.takesEffect then
        state.setImage executable image (some .pulled)
      else state
    if commands.pull = .done then (.ok (), pulled) else (.error .pull, pulled)

/-- `_build_fixed_image` -/
def buildFixedImage (commands : ImageCommands)
    (executable sourceImage fixedName : Text) (state : ImageState) :
    Except ImageError Unit × ImageState :=
  if ¬ commands.runSucceeds then (.error .build, state)
  else
    let committed :=
      if commands.chownSucceeds ∧ commands.commit.takesEffect then
        state.setImage executable fixedName
          (some (.committedFrom sourceImage))
      else state
    -- the container is stopped and removed however the commands have ended
    if commands.chownSucceeds ∧ commands.commit = .done ∧
        commands.stopReturns then
      (.ok (), committed)
    else (.error .build, committed)

/-- The source image is there, the derived one is built and remembered. -/
def buildAndCache (registryPrefix : Text) (commands : ImageCommands)
    (key : CacheKey) (state : ImageState) :
    Except ImageError (Text × Nat) × ImageState :=
  match
    ensureSourceImage registryPrefix commands key.containerExecutable
      key.sourceImage state
  with
  | (.error failure, state) => (.error failure, state)
  | (.ok (), state) =>
      if ¬ commands.inspectReturns then (.error .inspect, state)
      else
        match
          buildFixedImage commands key.containerExecutable key.sourceImage
            key.fixedName state
        with
        | (.error failure, state) => (.error failure, state)
        | (.ok (), state) =>
            let entry := (key.fixedName, commands.elapsed)
            (.ok entry, state.setCache key (some entry))

/-- `fixed_image_name or fixed_image_name_for(source_image)` -/
def EnsureCall.key (registryPrefix : Text) (call : EnsureCall) : CacheKey :=
  let sourceImage := normalizeImageReference registryPrefix call.sourceImage
  let given := call.fixedImageName.getD []
  { containerExecutable := call.containerExecutable
    sourceImage := sourceImage
    fixedName :=
      if given.isEmpty then fixedImageNameFor sourceImage else given }

/-- `ensure_fixed_image` -/
def ensureFixedImage (registryPrefix : Text) (call : EnsureCall)
    (state : ImageState) : Except ImageError (Text × Nat) × ImageState :=
  let key := call.key registryPrefix
  if call.rebuild then
    match
      removeImage call.commands key.containerExecutable key.fixedName
        (state.setCache key none)
    with
    | (.error failure, state) => (.error failure, state)
    | (.ok _, state) => buildAndCache registryPrefix call.commands key state
  else
    match state.cache key with
    | some entry => (.ok entry, state)
    | none =>
        if call.commands.answers ∧
            state.images key.containerExecutable key.fixedName ≠ none then
          (.ok (key.fixedName, 0),
            state.setCache key (some (key.fixedName, 0)))
        else buildAndCache registryPrefix call.commands key state

/-- `drop_cached_fixed_image` -/
def dropCachedFixedImage (registryPrefix sourceImage : Text)
    (state : ImageState) : ImageState :=
  { state with
    cache := fun key =>
      if key.sourceImage = normalizeImageReference registryPrefix sourceImage
      then none
      else state.cache key }

/-! ## Runs -/

/-- What happens to the images. -/
inductive ImageOperation where
  | ensure (call : EnsureCall)
  -- a cleanup, which forgets the image however its removal has ended
  | remove (sourceImage containerExecutable : Text) (commands : ImageCommands)
  -- another process, whose cache is empty
  | restart

/-- A call or a cleanup of one of the sources, with the default name. -/
def ImageOperation.About (sources : Set Text) : ImageOperation → Prop
  | .ensure call => call.sourceImage ∈ sources ∧ call.fixedImageName = none
  | .remove sourceImage _ _ => sourceImage ∈ sources
  | .restart => True

def ImageState.step (registryPrefix : Text) (state : ImageState) :
    ImageOperation → ImageState
  | .ensure call => (ensureFixedImage registryPrefix call state).2
  | .remove sourceImage executable commands =>
      dropCachedFixedImage registryPrefix sourceImage
        (removeImage commands executable
          (fixedImageNameFor
            (normalizeImageReference registryPrefix sourceImage)) state).2
  | .restart => { state with cache := fun _ => none }

def ImageState.run (registryPrefix : Text) (state : ImageState)
    (operations : List ImageOperation) : ImageState :=
  operations.foldl (ImageState.step registryPrefix) state

/-- Nothing is remembered, and no image has the name of a derived one. -/
structure ImageState.Fresh (state : ImageState) : Prop where
  cache : ∀ key, state.cache key = none
  images :
    ∀ executable sourceImage,
      state.images executable (fixedImageNameFor sourceImage) = none

/-- The name that a call returns is that of an image of its source. -/
def ReturnsOwnImage (registryPrefix : Text) (state : ImageState)
    (call : EnsureCall) : Prop :=
  ∀ name elapsed after,
    ensureFixedImage registryPrefix call state = (.ok (name, elapsed), after) →
      after.images call.containerExecutable name =
        some
          (.committedFrom
            (normalizeImageReference registryPrefix call.sourceImage))

/-- Whatever has happened to the sources, a call returns an own image. -/
def ImagesBelong (registryPrefix : Text) (sources : Set Text) : Prop :=
  ∀ start : ImageState, start.Fresh →
    ∀ operations : List ImageOperation,
      (∀ operation ∈ operations, operation.About sources) →
        ∀ call : EnsureCall, (ImageOperation.ensure call).About sources →
          ReturnsOwnImage registryPrefix
            (start.run registryPrefix operations) call

/-- Sources of different references have different slugs. -/
def SlugsApart (registryPrefix : Text) (sources : Set Text) : Prop :=
  ∀ first ∈ sources, ∀ second ∈ sources,
    imageSlug (normalizeImageReference registryPrefix first) =
        imageSlug (normalizeImageReference registryPrefix second) →
      normalizeImageReference registryPrefix first =
        normalizeImageReference registryPrefix second

/-! ## Names of images -/

/-- The key of a source with the default name. -/
def defaultKey (registryPrefix sourceImage executable : Text) : CacheKey :=
  let normalized := normalizeImageReference registryPrefix sourceImage
  ⟨executable, normalized, fixedImageNameFor normalized⟩

theorem key_of_default {registryPrefix : Text} {call : EnsureCall}
    (isDefault : call.fixedImageName = none) :
    call.key registryPrefix =
      defaultKey registryPrefix call.sourceImage call.containerExecutable := by
  rw [EnsureCall.key, isDefault]
  rfl

theorem fixedImageNameFor_eq {first second : Text} :
    fixedImageNameFor first = fixedImageNameFor second ↔
      imageSlug first = imageSlug second := by
  rw [fixedImageNameFor, fixedImageNameFor]
  exact List.append_right_inj fixedImagePrefix

theorem slash_notMem_fixedImageNameFor (sourceImage : Text) :
    '/' ∉ fixedImageNameFor sourceImage := by
  have notPrefix : '/' ∉ fixedImagePrefix := by decide
  rw [fixedImageNameFor, imageSlug]
  intro member
  obtain ⟨char, -, isSlash⟩ :=
    List.mem_map.mp ((List.mem_append.mp member).resolve_left notPrefix)
  rw [slugChar] at isSlash
  split at isSlash
  · cases isSlash
  · next other => exact other (.inl isSlash)

theorem slash_mem_normalizeImageReference {registryPrefix image : Text}
    (nonempty : normalizeImageReference registryPrefix image ≠ []) :
    '/' ∈ normalizeImageReference registryPrefix image := by
  have library : '/' ∈ "/library/".toList := by decide
  have slash : '/' ∈ "/".toList := by decide
  unfold normalizeImageReference at nonempty ⊢
  by_cases isEmpty : image.isEmpty
  · rw [if_pos isEmpty] at nonempty
    exact absurd rfl nonempty
  · rw [if_neg isEmpty]
    by_cases noSlash : '/' ∉ image
    · rw [if_pos noSlash]
      exact List.mem_append_left _ (List.mem_append_right _ library)
    · rw [if_neg noSlash]
      dsimp only
      split
      · exact not_not.mp noSlash
      · exact List.mem_append_left _ (List.mem_append_right _ slash)

/-- No source image has the name of a derived one. -/
theorem normalizeImageReference_ne {registryPrefix image : Text}
    (nonempty : normalizeImageReference registryPrefix image ≠ [])
    (sourceImage : Text) :
    fixedImageNameFor sourceImage ≠
      normalizeImageReference registryPrefix image := by
  intro same
  have hasSlash := slash_mem_normalizeImageReference nonempty
  rw [← same] at hasSlash
  exact slash_notMem_fixedImageNameFor sourceImage hasSlash

/-! ## Own images -/

/-- A derived image is of its source, and one that is remembered exists. -/
structure Owned (registryPrefix : Text) (sources : Set Text)
    (state : ImageState) : Prop where
  images :
    ∀ source ∈ sources, ∀ executable origin,
      state.images executable
          (fixedImageNameFor (normalizeImageReference registryPrefix source)) =
        some origin →
      origin = .committedFrom (normalizeImageReference registryPrefix source)
  cache :
    ∀ source ∈ sources, ∀ executable entry,
      state.cache (defaultKey registryPrefix source executable) =
        some entry →
      entry.1 =
          fixedImageNameFor (normalizeImageReference registryPrefix source) ∧
        state.images executable entry.1 ≠ none

section Steps

variable {registryPrefix : Text} {sources : Set Text} {state : ImageState}
  {source : Text}

namespace Owned

theorem fresh (isFresh : state.Fresh) :
    Owned registryPrefix sources state where
  images _ _ executable origin isImage := by
    rw [isFresh.images] at isImage
    cases isImage
  cache _ _ executable entry isEntry := by
    rw [isFresh.cache] at isEntry
    cases isEntry

/-- An image whose name is not derived is of no account. -/
theorem other (owned : Owned registryPrefix sources state)
    {image : Text} (isOther : ∀ source, fixedImageNameFor source ≠ image)
    (executable : Text) (origin : Option ImageOrigin) :
    Owned registryPrefix sources
      (state.setImage executable image origin) where
  images source member owner origin isImage := by
    rw [ImageState.setImage] at isImage
    dsimp only at isImage
    rw [if_neg fun same => isOther _ same.2] at isImage
    exact owned.images source member owner origin isImage
  cache source member owner entry isEntry := by
    obtain ⟨isName, isThere⟩ := owned.cache source member owner entry isEntry
    refine ⟨isName, ?_⟩
    rw [ImageState.setImage]
    dsimp only
    rw [if_neg fun same => isOther _ (isName ▸ same.2)]
    exact isThere

/-- What is remembered may be forgotten. -/
theorem forget (owned : Owned registryPrefix sources state)
    {cache : CacheKey → Option (Text × Nat)}
    (less : ∀ key entry, cache key = some entry →
      state.cache key = some entry) :
    Owned registryPrefix sources { state with cache := cache } where
  images := owned.images
  cache source member owner entry isEntry :=
    owned.cache source member owner entry (less _ entry isEntry)

/-- A derived image that is not remembered may be removed. -/
theorem removed (owned : Owned registryPrefix sources state)
    (apart : SlugsApart registryPrefix sources) (member : source ∈ sources)
    {executable : Text}
    (forgotten :
      state.cache (defaultKey registryPrefix source executable) = none) :
    Owned registryPrefix sources
      (state.setImage executable
        (fixedImageNameFor (normalizeImageReference registryPrefix source))
        none) where
  images other otherMember owner origin isImage := by
    rw [ImageState.setImage] at isImage
    dsimp only at isImage
    split at isImage
    · cases isImage
    · exact owned.images other otherMember owner origin isImage
  cache other otherMember owner entry isEntry := by
    obtain ⟨isName, isThere⟩ :=
      owned.cache other otherMember owner entry isEntry
    refine ⟨isName, ?_⟩
    rw [ImageState.setImage]
    dsimp only
    rw [if_neg]
    · exact isThere
    · rintro ⟨rfl, sameName⟩
      have sameSource :=
        apart other otherMember source member
          (fixedImageNameFor_eq.mp (isName ▸ sameName))
      change state.cache
        (defaultKey registryPrefix other owner) = some entry at isEntry
      rw [defaultKey, sameSource] at isEntry
      rw [defaultKey, isEntry] at forgotten
      cases forgotten

theorem committed (owned : Owned registryPrefix sources state)
    (apart : SlugsApart registryPrefix sources) (member : source ∈ sources)
    (executable : Text) :
    Owned registryPrefix sources
      (state.setImage executable
        (fixedImageNameFor (normalizeImageReference registryPrefix source))
        (some
          (.committedFrom
            (normalizeImageReference registryPrefix source)))) where
  images other otherMember owner origin isImage := by
    rw [ImageState.setImage] at isImage
    dsimp only at isImage
    split at isImage
    · next same =>
      cases isImage
      rw [apart other otherMember source member
        (fixedImageNameFor_eq.mp same.2)]
    · exact owned.images other otherMember owner origin isImage
  cache other otherMember owner entry isEntry := by
    obtain ⟨isName, isThere⟩ :=
      owned.cache other otherMember owner entry isEntry
    refine ⟨isName, ?_⟩
    rw [ImageState.setImage]
    dsimp only
    split
    · nofun
    · exact isThere

/-- A derived image that exists may be remembered. -/
theorem remembered (owned : Owned registryPrefix sources state)
    (executable : Text) (elapsed : Nat)
    (isThere :
      state.images executable
          (fixedImageNameFor (normalizeImageReference registryPrefix source)) ≠
        none) :
    Owned registryPrefix sources
      (state.setCache (defaultKey registryPrefix source executable)
        (some
          (fixedImageNameFor (normalizeImageReference registryPrefix source),
            elapsed))) where
  images := owned.images
  cache other otherMember owner entry isEntry := by
    rw [ImageState.setCache] at isEntry
    dsimp only at isEntry
    split at isEntry
    · next same =>
      cases isEntry
      simp only [defaultKey, CacheKey.mk.injEq] at same
      obtain ⟨rfl, sameSource, -⟩ := same
      rw [sameSource]
      exact ⟨rfl, isThere⟩
    · exact owned.cache other otherMember owner entry isEntry

end Owned

/-- A call that returns gives the name of an image of its source. -/
structure Returned (registryPrefix : Text) (sources : Set Text)
    (source executable : Text)
    (outcome : Except ImageError (Text × Nat) × ImageState) : Prop where
  owned : Owned registryPrefix sources outcome.2
  returned :
    ∀ name elapsed, outcome.1 = .ok (name, elapsed) →
      outcome.2.images executable name =
        some (.committedFrom (normalizeImageReference registryPrefix source))

theorem Returned.raised {executable : Text} {failure : ImageError}
    (owned : Owned registryPrefix sources state) :
    Returned registryPrefix sources source executable
      (.error failure, state) where
  owned := owned
  returned _ _ := nofun

/-- A removal removes the image or leaves it. -/
theorem removeImage_state (commands : ImageCommands)
    (executable image : Text) :
    (removeImage commands executable image state).2 = state ∨
      (removeImage commands executable image state).2 =
        state.setImage executable image none := by
  rw [removeImage]
  split
  · exact .inl rfl
  · dsimp only
    split
    · split <;> simp
    · split <;> simp

theorem ensureSourceImage_owned (commands : ImageCommands)
    (executable image : Text)
    (owned : Owned registryPrefix sources state) :
    Owned registryPrefix sources
      (ensureSourceImage registryPrefix commands executable image state).2 := by
  rw [ensureSourceImage]
  dsimp only
  split
  · exact owned
  · next nonempty =>
    have isOther :=
      normalizeImageReference_ne (by simpa using nonempty)
    have pulled :
        Owned registryPrefix sources
          (if commands.pull.takesEffect then
            state.setImage executable
              (normalizeImageReference registryPrefix image) (some .pulled)
          else state) := by
      split
      · exact owned.other isOther executable _
      · exact owned
    split
    · exact owned
    · split
      · exact pulled
      · exact pulled

theorem buildFixedImage_owned (commands : ImageCommands)
    (executable : Text) (apart : SlugsApart registryPrefix sources)
    (member : source ∈ sources)
    (owned : Owned registryPrefix sources state) :
    let normalized := normalizeImageReference registryPrefix source
    let outcome :=
      buildFixedImage commands executable normalized
        (fixedImageNameFor normalized) state
    Owned registryPrefix sources outcome.2 ∧
      (outcome.1 = .ok () →
        outcome.2.images executable (fixedImageNameFor normalized) =
          some (.committedFrom normalized)) := by
  dsimp only
  rw [buildFixedImage]
  split
  · exact ⟨owned, nofun⟩
  · dsimp only
    split
    · next succeeds =>
      have takesEffect :
          commands.chownSucceeds ∧ commands.commit.takesEffect := by
        rw [succeeds.2.1]
        exact ⟨succeeds.1, rfl⟩
      rw [if_pos takesEffect]
      refine ⟨owned.committed apart member executable, fun _ => ?_⟩
      simp [ImageState.setImage]
    · refine ⟨?_, nofun⟩
      dsimp only
      split
      · exact owned.committed apart member executable
      · exact owned

theorem buildAndCache_returned (commands : ImageCommands)
    (executable : Text) (apart : SlugsApart registryPrefix sources)
    (member : source ∈ sources)
    (owned : Owned registryPrefix sources state) :
    Returned registryPrefix sources source executable
      (buildAndCache registryPrefix commands
        (defaultKey registryPrefix source executable) state) := by
  have pulled :=
    ensureSourceImage_owned commands executable
      (normalizeImageReference registryPrefix source) owned
  rw [buildAndCache, defaultKey]
  dsimp only
  split
  · next failure after isPull =>
    rw [isPull] at pulled
    exact .raised pulled
  · next after isPull =>
    rw [isPull] at pulled
    split
    · exact .raised pulled
    · obtain ⟨built, isBuilt⟩ :=
        buildFixedImage_owned commands executable apart member pulled
      split
      · next failure final isBuild =>
        rw [isBuild] at built
        exact .raised built
      · next final isBuild =>
        rw [isBuild] at built isBuilt
        have isOwn := isBuilt rfl
        refine ⟨built.remembered executable _ (by rw [isOwn]; nofun), ?_⟩
        rintro name elapsed ⟨⟩
        exact isOwn

/-- Each call keeps derived images with their sources. -/
theorem ensureFixedImage_returned (call : EnsureCall)
    (isDefault : call.fixedImageName = none)
    (apart : SlugsApart registryPrefix sources)
    (member : call.sourceImage ∈ sources)
    (owned : Owned registryPrefix sources state) :
    Returned registryPrefix sources call.sourceImage
      call.containerExecutable
      (ensureFixedImage registryPrefix call state) := by
  rw [ensureFixedImage, key_of_default isDefault]
  split
  · let key :=
      defaultKey registryPrefix call.sourceImage call.containerExecutable
    have forgotten :
        Owned registryPrefix sources (state.setCache key none) := by
      refine owned.forget fun key entry isEntry => ?_
      split at isEntry
      · cases isEntry
      · exact isEntry
    have removed :
        Owned registryPrefix sources
          (removeImage call.commands key.containerExecutable key.fixedName
            (state.setCache key none)).2 := by
      rcases
        (removeImage_state call.commands key.containerExecutable
          key.fixedName :
          (removeImage _ _ _ (state.setCache key none)).2 = _ ∨ _) with
        same | without
      · rw [same]
        exact forgotten
      · rw [without]
        exact forgotten.removed apart member (if_pos rfl)
    split
    · next failure after isRemoval =>
      rw [isRemoval] at removed
      exact .raised removed
    · next gone after isRemoval =>
      rw [isRemoval] at removed
      exact buildAndCache_returned _ _ apart member removed
  · split
    · next entry isEntry =>
      obtain ⟨isName, isThere⟩ :=
        owned.cache _ member _ entry isEntry
      refine ⟨owned, ?_⟩
      rintro name elapsed ⟨⟩
      obtain ⟨origin, isImage⟩ := Option.ne_none_iff_exists'.mp isThere
      have isOrigin :=
        owned.images _ member _ origin (isName ▸ isImage)
      rw [isImage, isOrigin]
    · split
      · next isThere =>
        refine ⟨owned.remembered _ _ isThere.2, ?_⟩
        rintro name elapsed ⟨⟩
        obtain ⟨origin, isImage⟩ :=
          Option.ne_none_iff_exists'.mp isThere.2
        have isOrigin := owned.images _ member _ origin isImage
        exact isImage.trans (congrArg some isOrigin)
      · exact buildAndCache_returned _ _ apart member owned

theorem step_owned {operation : ImageOperation}
    (apart : SlugsApart registryPrefix sources)
    (about : operation.About sources)
    (owned : Owned registryPrefix sources state) :
    Owned registryPrefix sources (state.step registryPrefix operation) := by
  cases operation with
  | ensure call =>
      exact
        (ensureFixedImage_returned call about.2 apart about.1 owned).owned
  | remove source executable commands =>
      have dropped :
          Owned registryPrefix sources
            (dropCachedFixedImage registryPrefix source state) := by
        refine owned.forget fun key entry isEntry => ?_
        split at isEntry
        · cases isEntry
        · exact isEntry
      rw [ImageState.step]
      rcases
        removeImage_state commands executable
          (fixedImageNameFor
            (normalizeImageReference registryPrefix source)) with
        same | without
      · rw [same]
        exact dropped
      · rw [without]
        exact dropped.removed apart about (if_pos rfl)
  | restart => exact owned.forget fun key entry => nofun

/-- Over a run derived images stay with their sources. -/
theorem run_owned {operations : List ImageOperation}
    (apart : SlugsApart registryPrefix sources)
    (about : ∀ operation ∈ operations, operation.About sources)
    (owned : Owned registryPrefix sources state) :
    Owned registryPrefix sources (state.run registryPrefix operations) := by
  induction operations generalizing state with
  | nil => exact owned
  | cons operation rest induction =>
      rw [List.forall_mem_cons] at about
      exact induction about.2 (step_owned apart about.1 owned)

end Steps

/-! ## Colliding names -/

/-- All commands of a call succeed. -/
def willingCommands : ImageCommands where
  answers := true
  answersSource := true
  removal := .done
  pull := .done
  inspectReturns := true
  runSucceeds := true
  chownSucceeds := true
  commit := .done
  stopReturns := true
  elapsed := 0

def plainCall (sourceImage : Text) : EnsureCall :=
  ⟨sourceImage, "docker".toList, none, false, willingCommands⟩

def noImages : ImageState := ⟨fun _ _ => none, fun _ => none⟩

theorem noImages_fresh : noImages.Fresh := ⟨fun _ => rfl, fun _ _ => rfl⟩

theorem ensureSourceImage_willing (registryPrefix executable image : Text)
    (state : ImageState) :
    ∃ after,
      ensureSourceImage registryPrefix willingCommands executable image
          state =
        (.ok (), after) ∧
      after.cache = state.cache := by
  rw [ensureSourceImage]
  dsimp only
  split
  · exact ⟨state, rfl, rfl⟩
  · split
    · exact ⟨state, rfl, rfl⟩
    · exact ⟨_, if_pos rfl, rfl⟩

/-- The first call builds an image and remembers only it. -/
theorem ensureFixedImage_noImages (registryPrefix sourceImage : Text) :
    let normalized := normalizeImageReference registryPrefix sourceImage
    let state :=
      (ensureFixedImage registryPrefix (plainCall sourceImage) noImages).2
    state.images (plainCall sourceImage).containerExecutable
          (fixedImageNameFor normalized) =
        some (.committedFrom normalized) ∧
      ∀ key : CacheKey, key.sourceImage ≠ normalized →
        state.cache key = none := by
  have builds :
      ensureFixedImage registryPrefix (plainCall sourceImage) noImages =
        buildAndCache registryPrefix willingCommands
          (defaultKey registryPrefix sourceImage "docker".toList)
          noImages := by
    rw [ensureFixedImage, key_of_default rfl]
    exact (if_neg Bool.false_ne_true).trans (if_neg fun both => both.2 rfl)
  rw [builds, buildAndCache]
  obtain ⟨after, isPull, sameCache⟩ :=
    ensureSourceImage_willing registryPrefix "docker".toList
      (normalizeImageReference registryPrefix sourceImage) noImages
  dsimp only [defaultKey]
  rw [isPull]
  refine ⟨?_, fun key differ => ?_⟩
  · exact if_pos ⟨rfl, rfl⟩
  · refine (if_neg ?_).trans (congrFun sameCache key)
    rintro rfl
    exact differ rfl

/-- Names lead back to their sources exactly when no two slugs collide. -/
theorem imagesBelong_iff (registryPrefix : Text) (sources : Set Text) :
    ImagesBelong registryPrefix sources ↔
      SlugsApart registryPrefix sources := by
  constructor
  · intro belong first firstMember second secondMember sameSlug
    by_contra differ
    have sameName := fixedImageNameFor_eq.mpr sameSlug
    obtain ⟨isImage, isForgotten⟩ :=
      ensureFixedImage_noImages registryPrefix first
    have isOwn :=
      belong noImages noImages_fresh [.ensure (plainCall first)]
        (List.forall_mem_singleton.mpr ⟨firstMember, rfl⟩)
        (plainCall second) ⟨secondMember, rfl⟩
    change ReturnsOwnImage registryPrefix
      (ensureFixedImage registryPrefix (plainCall first) noImages).2
      (plainCall second) at isOwn
    generalize
      (ensureFixedImage registryPrefix (plainCall first) noImages).2 =
        state at isImage isForgotten isOwn
    rw [sameName] at isImage
    change state.images "docker".toList _ = _ at isImage
    -- the second call takes the image of the first one for its own
    have taken :
        ensureFixedImage registryPrefix (plainCall second) state =
          (.ok
            (fixedImageNameFor
              (normalizeImageReference registryPrefix second), 0),
            state.setCache
              (defaultKey registryPrefix second "docker".toList)
              (some
                (fixedImageNameFor
                  (normalizeImageReference registryPrefix second), 0))) := by
      rw [ensureFixedImage, key_of_default rfl]
      refine (if_neg Bool.false_ne_true).trans ?_
      dsimp only [plainCall]
      rw [isForgotten _ (Ne.symm differ)]
      exact if_pos ⟨rfl, fun missing => nomatch missing.symm.trans isImage⟩
    have own := isOwn _ _ _ taken
    have isSecond := isImage.symm.trans own
    exact differ (ImageOrigin.committedFrom.inj (Option.some.inj isSecond))
  · intro apart start isFresh operations about call aboutCall name elapsed
      after isOutcome
    have owned := run_owned apart about (Owned.fresh isFresh)
    have isReturned :=
      ensureFixedImage_returned call aboutCall.2 apart aboutCall.1 owned
    rw [isOutcome] at isReturned
    exact isReturned.returned name elapsed rfl

/-- Two references of different repositories share a derived image. -/
theorem shared_fixedImage :
    ¬ ∀ (registryPrefix : Text) (sources : Set Text),
      ImagesBelong registryPrefix sources := by
  intro always
  have apart :=
    (imagesBelong_iff [] {"team/swe_task".toList, "team_swe/task".toList}).mp
      (always _ _)
  have same :=
    apart "team/swe_task".toList (.inl rfl) "team_swe/task".toList (.inr rfl)
      (by decide)
  exact absurd same (by decide)

end AgentSchedBench.Harness
