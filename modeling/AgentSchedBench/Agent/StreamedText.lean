import AgentSchedBench.Library.Blocks
import AgentSchedBench.Library.Deltas
import AgentSchedBench.Trace.Files

/-!
# The text that is streamed

With each chunk of a response the hook strips what has come so far, and emits
what is longer than before.  Stripped texts grow at their end unless one ends
in the start of a think tag.
-/

namespace AgentSchedBench.Agent

open AgentSchedBench.Trace (Text strip strip_prefix)
open Blocks Deltas

def openTag : Text := "<think>".toList

def closeTag : Text := "</think>".toList

/-- `strip_think` -/
def stripThink (text : Text) : Text :=
  let text := removeFrom openTag closeTag 0 text
  let text := beforeTag openTag text
  strip text

/-- The state of the hook. -/
structure StreamHook where
  streamBuf : Text

namespace StreamHook

/-- `on_stream`, with what is emitted -/
def onStream (hook : StreamHook) (delta : Text) : StreamHook × Option Text :=
  let prevClean := stripThink hook.streamBuf
  let streamBuf := hook.streamBuf ++ delta
  let newClean := stripThink streamBuf
  let incremental := newClean.drop prevClean.length
  (⟨streamBuf⟩, if incremental = [] then none else some incremental)

/-- What is emitted for the chunks of a response. -/
def streamed (hook : StreamHook) : List Text → List Text
  | [] => []
  | delta :: rest =>
      let (hook, emitted) := hook.onStream delta
      emitted.toList ++ hook.streamed rest

end StreamHook

/-- The deltas are together the stripped text of the response. -/
def ShowsFinalText (chunks : List Text) : Prop :=
  ((StreamHook.mk []).streamed chunks).flatten = stripThink chunks.flatten

instance (chunks : List Text) : Decidable (ShowsFinalText chunks) :=
  inferInstanceAs (Decidable (_ = _))

/-- A text ends in the start of a think tag, which may become one. -/
def EndsInTag (text : Text) : Prop :=
  EndsWithin openTag (outside openTag closeTag text)

/-- A chunk that ends in the start of a think tag adds what the final text has
at that place, and one behind such a chunk leaves no shorter text. -/
def ChunkFits (final before after : Text) : Prop :=
  (EndsInTag before → (stripThink before).length ≤ (stripThink after).length) ∧
    (EndsInTag after →
      (stripThink after).drop (stripThink before).length <+:
        final.drop (stripThink before).length)

section Stripped

variable {text : Text}

/-- Unless a text ends in the start of a tag, it is stripped to the front of
what the whole text is stripped to. -/
theorem stripThink_isPrefix (notWithin : ¬ EndsInTag text) (more : Text) :
    stripThink text <+: stripThink (text ++ more) :=
  strip_prefix (outside_isPrefix (by decide) notWithin more)

theorem chunkFits_iff (before chunk rest : Text) :
    ChunkFits (stripThink (before ++ chunk ++ rest)) before (before ++ chunk) ↔
      (stripThink before).length ≤ (stripThink (before ++ chunk)).length ∧
        (stripThink (before ++ chunk)).drop (stripThink before).length <+:
          (stripThink (before ++ chunk ++ rest)).drop
            (stripThink before).length := by
  constructor
  · rintro ⟨notShorter, adds⟩
    constructor
    · by_cases within : EndsInTag before
      · exact notShorter within
      · exact (stripThink_isPrefix within chunk).length_le
    · by_cases within : EndsInTag (before ++ chunk)
      · exact adds within
      · exact (stripThink_isPrefix within rest).drop _
  · rintro ⟨notShorter, adds⟩
    exact ⟨fun _ => notShorter, fun _ => adds⟩

end Stripped

/-! ## All chunks -/

/-- The stripped texts after each chunk. -/
def cleans (buffer : Text) : List Text → List Text
  | [] => []
  | chunk :: rest => stripThink (buffer ++ chunk) :: cleans (buffer ++ chunk) rest

theorem streamed_flatten (buffer : Text) (chunks : List Text) :
    ((StreamHook.mk buffer).streamed chunks).flatten =
      deltas (stripThink buffer) (cleans buffer chunks) := by
  induction chunks generalizing buffer with
  | nil => rfl
  | cons chunk rest induction =>
      rw [StreamHook.streamed, StreamHook.onStream, cleans, deltas]
      dsimp only
      rw [List.flatten_append, induction]
      split
      · next isEmpty =>
          rw [isEmpty]
          rfl
      · rw [Option.toList_some, List.flatten_singleton]

theorem lastValue_cleans (buffer : Text) (chunks : List Text) :
    lastValue (stripThink buffer) (cleans buffer chunks) =
      stripThink (buffer ++ chunks.flatten) := by
  induction chunks generalizing buffer with
  | nil => rw [cleans, lastValue, List.flatten_nil, List.append_nil]
  | cons chunk rest induction =>
      rw [cleans, lastValue, induction, List.flatten_cons, List.append_assoc]

theorem adds_cleans_iff (buffer : Text) (chunks : List Text) :
    Adds (stripThink (buffer ++ chunks.flatten)) (stripThink buffer)
        (cleans buffer chunks) ↔
      ∀ front chunk rest, chunks = front ++ chunk :: rest →
        ChunkFits (stripThink (buffer ++ chunks.flatten))
          (buffer ++ front.flatten) (buffer ++ front.flatten ++ chunk) := by
  induction chunks generalizing buffer with
  | nil =>
      refine iff_of_true trivial fun front chunk rest same => ?_
      exact absurd same (by simp)
  | cons chunk rest induction =>
      have joined (others : List Text) :
          buffer ++ chunk ++ others.flatten =
            buffer ++ (chunk :: others).flatten := by
        rw [List.flatten_cons, List.append_assoc]
      have next := induction (buffer ++ chunk)
      have here := chunkFits_iff buffer chunk rest.flatten
      rw [joined] at next here
      rw [cleans, Adds, next, ← and_assoc, ← here]
      constructor
      · rintro ⟨fits, later⟩ front other others same
        cases front with
        | nil =>
            rw [List.nil_append, List.cons.injEq] at same
            rw [List.flatten_nil, List.append_nil, ← same.1]
            exact fits
        | cons first front =>
            rw [List.cons_append, List.cons.injEq] at same
            rw [← same.1, ← joined front]
            exact later front other others same.2
      · intro fits
        refine ⟨?_, fun front other others same => ?_⟩
        · have first := fits [] chunk rest rfl
          rwa [List.flatten_nil, List.append_nil] at first
        · have later := fits (chunk :: front) other others
            (by rw [same, List.cons_append])
          rwa [← joined front] at later

/-- The streamed text is the final one if and only if each chunk that ends in
the start of a think tag, or follows one that does, adds what the final text
has at that place. -/
theorem showsFinalText_iff (chunks : List Text) :
    ShowsFinalText chunks ↔
      ∀ front chunk rest, chunks = front ++ chunk :: rest →
        ChunkFits (stripThink chunks.flatten) front.flatten
          (front.flatten ++ chunk) := by
  have isEmpty : stripThink [] = [] := rfl
  have nothing : ([] : Text).length = (stripThink []).length := rfl
  have written := append_deltas_eq_iff nothing (lastValue_cleans [] chunks)
  rw [List.nil_append, ← streamed_flatten, adds_cleans_iff] at written
  simpa [ShowsFinalText] using written

/-- The start of the tag is shown, and the start of the answer is not. -/
theorem cutTag_not_showsFinalText :
    ¬ ShowsFinalText ["<thi".toList, "nk>secret</think>Hello".toList] := by
  decide

end AgentSchedBench.Agent
