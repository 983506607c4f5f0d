import Mathlib.Data.List.Infix

/-!
# Blocks between two tags

What lies between an opening tag and the next closing one is taken out of a
text, and the rest is cut at the first opening tag that is left.  While the
text grows, what is left grows at its end, unless it ended within an opening
tag.
-/

namespace Blocks

variable {α : Type} [DecidableEq α]

/-- Where the first occurrence of a pattern ends. -/
def endOf (pattern : List α) : List α → Option Nat
  | [] => if pattern = [] then some 0 else none
  | item :: rest =>
      if pattern <+: item :: rest then some pattern.length
      else (endOf pattern rest).map (· + 1)

/-- The number of items of the block that begins here. -/
def blockAt (openTag closeTag text : List α) : Option Nat :=
  if openTag <+: text then
    (endOf closeTag (text.drop openTag.length)).map (openTag.length + ·)
  else none

/-- The items outside of all blocks; the first items are skipped. -/
def removeFrom (openTag closeTag : List α) : Nat → List α → List α
  | _, [] => []
  | skip + 1, _ :: rest => removeFrom openTag closeTag skip rest
  | 0, item :: rest =>
      match blockAt openTag closeTag (item :: rest) with
      | some length => removeFrom openTag closeTag (length - 1) rest
      | none => item :: removeFrom openTag closeTag 0 rest

/-- The items in front of the first tag. -/
def beforeTag (tag : List α) : List α → List α
  | [] => []
  | item :: rest =>
      if tag <+: item :: rest then []
      else item :: beforeTag tag rest

/-- What is left of a text without its blocks, the last of which may not be
closed. -/
def outside (openTag closeTag text : List α) : List α :=
  beforeTag openTag (removeFrom openTag closeTag 0 text)

/-- A text ends within a tag: some of the tag, and not all of it, is its
end. -/
def EndsWithin (tag text : List α) : Prop :=
  ∃ start, start ≠ [] ∧ start <+: tag ∧ start ≠ tag ∧ start <:+ text

/-! ## Blocks of a text that grows -/

section Block

variable {pattern openTag closeTag text : List α}

theorem length_le_of_endOf {stop : Nat}
    (isEnd : endOf pattern text = some stop) :
    pattern.length ≤ text.length := by
  induction text generalizing stop with
  | nil =>
      rw [endOf, Option.ite_none_right_eq_some] at isEnd
      rw [isEnd.1]
  | cons item rest induction =>
      rw [endOf] at isEnd
      split at isEnd
      · next found => exact found.length_le
      · obtain ⟨before, isBefore, -⟩ := Option.map_eq_some_iff.mp isEnd
        exact Nat.le_succ_of_le (induction isBefore)

theorem endOf_append {stop : Nat} (isEnd : endOf pattern text = some stop)
    (more : List α) : endOf pattern (text ++ more) = some stop := by
  induction text generalizing stop with
  | nil =>
      rw [endOf, Option.ite_none_right_eq_some] at isEnd
      obtain ⟨rfl, isZero⟩ := isEnd
      cases more with
      | nil => rw [List.append_nil, endOf, if_pos rfl, isZero]
      | cons item rest =>
          rw [List.nil_append, endOf, if_pos List.nil_prefix, ← isZero]
          rfl
  | cons item rest induction =>
      rw [endOf] at isEnd
      rw [List.cons_append, endOf, ← List.cons_append]
      split at isEnd
      · next found =>
          rw [if_pos (found.trans (List.prefix_append _ more)), isEnd]
      · next notFound =>
          obtain ⟨before, isBefore, same⟩ := Option.map_eq_some_iff.mp isEnd
          have short := Nat.le_succ_of_le (length_le_of_endOf isBefore)
          rw [if_neg, induction isBefore, Option.map_some, same]
          intro found
          exact notFound (List.prefix_of_prefix_length_le found
            (List.prefix_append _ more) short)

theorem blockAt_append {length : Nat}
    (isBlock : blockAt openTag closeTag text = some length)
    (more : List α) :
    blockAt openTag closeTag (text ++ more) = some length := by
  rw [blockAt, Option.ite_none_right_eq_some] at isBlock
  obtain ⟨opens, isLength⟩ := isBlock
  obtain ⟨stop, isEnd, same⟩ := Option.map_eq_some_iff.mp isLength
  rw [blockAt, if_pos (opens.trans (List.prefix_append _ more)),
    List.drop_append_of_le_length opens.length_le, endOf_append isEnd,
    Option.map_some, same]

/-- Without a block there is none further on. -/
theorem endOf_drop (isNone : endOf pattern text = none) (count : Nat) :
    endOf pattern (text.drop count) = none := by
  induction count generalizing text with
  | zero => exact isNone
  | succ count induction =>
      cases text with
      | nil => exact isNone
      | cons item rest =>
          rw [endOf] at isNone
          split at isNone
          · cases isNone
          · exact induction (Option.map_eq_none_iff.mp isNone)

/-- Nothing is removed from a text whose tags, if any, are not closed. -/
theorem removeFrom_eq_self
    (notClosed : ∀ count,
      openTag <+: text.drop count →
        endOf closeTag ((text.drop count).drop openTag.length) = none) :
    removeFrom openTag closeTag 0 text = text := by
  induction text with
  | nil => rfl
  | cons item rest induction =>
      have noBlock : blockAt openTag closeTag (item :: rest) = none := by
        rw [blockAt]
        split
        · next opens =>
            rw [show endOf closeTag ((item :: rest).drop openTag.length) = none
              from notClosed 0 opens, Option.map_none]
        · rfl
      rw [removeFrom, noBlock]
      dsimp only
      rw [induction fun count => notClosed (count + 1)]

/-- Nothing is removed from a text that begins with a tag that is not closed,
or that is the start of a tag. -/
theorem removeFrom_last (noBlock : blockAt openTag closeTag text = none)
    (last : text <+: openTag ∨ openTag <+: text) :
    removeFrom openTag closeTag 0 text = text := by
  apply removeFrom_eq_self
  intro count opens
  by_cases begins : openTag <+: text
  · rw [blockAt, if_pos begins, Option.map_eq_none_iff] at noBlock
    rw [List.drop_drop, Nat.add_comm, ← List.drop_drop]
    exact endOf_drop noBlock count
  · have isStart := last.resolve_right begins
    have long := opens.length_le
    rw [List.length_drop] at long
    have same : text = openTag :=
      isStart.eq_of_length_le (Nat.le_trans long (Nat.sub_le _ _))
    exact absurd (same ▸ List.prefix_rfl) begins

/-- Of a text that grows, only an end is read anew: the start of an opening
tag, or a tag that is not closed. -/
theorem removeFrom_append (openTag closeTag text : List α) (skip : Nat)
    (more : List α) :
    ∃ kept last next,
      removeFrom openTag closeTag skip text = kept ++ last ∧
        removeFrom openTag closeTag skip (text ++ more) = kept ++ next ∧
        (last <+: openTag ∨ openTag <+: last) := by
  induction text generalizing skip with
  | nil =>
      exact ⟨[], [], removeFrom openTag closeTag skip more,
        by cases skip <;> rfl, rfl, Or.inl List.nil_prefix⟩
  | cons item rest induction =>
      cases skip with
      | succ skip => exact induction skip
      | zero =>
          rw [List.cons_append, removeFrom, removeFrom, ← List.cons_append]
          cases isBlock : blockAt openTag closeTag (item :: rest) with
          | some length =>
              rw [blockAt_append isBlock]
              exact induction (length - 1)
          | none =>
              dsimp only
              cases later :
                  blockAt openTag closeTag (item :: rest ++ more) with
              | none =>
                  obtain ⟨kept, last, next, isKept, isNext, ends⟩ :=
                    induction 0
                  exact ⟨item :: kept, last, next, congrArg _ isKept,
                    congrArg _ isNext, ends⟩
              | some length =>
                  rw [blockAt, Option.ite_none_right_eq_some] at later
                  have ends := List.prefix_or_prefix_of_prefix
                    (List.prefix_append _ more) later.1
                  have isLast := removeFrom_last isBlock ends
                  rw [removeFrom, isBlock] at isLast
                  exact ⟨[], item :: rest, _, isLast, rfl, ends⟩

end Block

/-! ## A tag whose first item is not repeated -/

section Tag

variable {first : α} {others text : List α}

omit [DecidableEq α] in
theorem EndsWithin.append {tag : List α} (within : EndsWithin tag text)
    (front : List α) : EndsWithin tag (front ++ text) := by
  obtain ⟨start, notEmpty, isStart, notTag, isEnd⟩ := within
  exact ⟨start, notEmpty, isStart, notTag,
    isEnd.trans (List.suffix_append front text)⟩

theorem beforeTag_isPrefix (tag text : List α) : beforeTag tag text <+: text := by
  induction text with
  | nil => exact List.prefix_rfl
  | cons item rest induction =>
      rw [beforeTag]
      split
      · exact List.nil_prefix
      · exact (List.prefix_cons_inj item).mpr induction

theorem beforeTag_of_isPrefix {tag : List α} (begins : tag <+: text) :
    beforeTag tag text = [] := by
  cases text with
  | nil => rfl
  | cons item rest => rw [beforeTag, if_pos begins]

/-- A tag does not begin where its first item is missing. -/
theorem beforeTag_append {front : List α} (missing : first ∉ front)
    (rest : List α) :
    beforeTag (first :: others) (front ++ rest) =
      front ++ beforeTag (first :: others) rest := by
  induction front with
  | nil => rfl
  | cons item front induction =>
      rw [List.mem_cons, not_or] at missing
      rw [List.cons_append, beforeTag, if_neg, induction missing.2,
        List.cons_append]
      exact fun begins => missing.1 (List.cons_prefix_cons.mp begins).1

/-- What is in front of the tags of a start of a tag, or of a tag with
something behind it, ends within a tag. -/
theorem endsWithin_beforeTag {last : List α}
    (ends : last <+: first :: others ∨ first :: others <+: last)
    (notEmpty : beforeTag (first :: others) last ≠ []) :
    EndsWithin (first :: others) (beforeTag (first :: others) last) := by
  have isStart : last <+: first :: others :=
    ends.resolve_right fun begins => notEmpty (beforeTag_of_isPrefix begins)
  refine ⟨_, notEmpty, (beforeTag_isPrefix _ last).trans isStart, ?_,
    List.suffix_rfl⟩
  intro isTag
  have begins := beforeTag_isPrefix (first :: others) last
  rw [isTag] at begins
  exact notEmpty (beforeTag_of_isPrefix begins)

/-- If a text does not end within a tag, what is in front of its tags stays
when the end of the text is read anew. -/
theorem beforeTag_grows (once : first ∉ others) {kept last : List α}
    (next : List α)
    (ends : last <+: first :: others ∨ first :: others <+: last)
    (notWithin :
      ¬ EndsWithin (first :: others)
        (beforeTag (first :: others) (kept ++ last))) :
    beforeTag (first :: others) (kept ++ last) <+:
      beforeTag (first :: others) (kept ++ next) := by
  induction kept with
  | nil =>
      have isEmpty : beforeTag (first :: others) last = [] :=
        Classical.not_not.mp fun notEmpty =>
          notWithin (endsWithin_beforeTag ends notEmpty)
      rw [List.nil_append, isEmpty]
      exact List.nil_prefix
  | cons item kept induction =>
      by_cases begins : first :: others <+: item :: kept ++ last
      · rw [beforeTag_of_isPrefix begins]
        exact List.nil_prefix
      · rw [List.cons_append, beforeTag, ← List.cons_append, if_neg begins]
          at notWithin ⊢
        by_cases later : first :: others <+: item :: kept ++ next
        · -- the tag is completed: what was kept is a start of it
          refine absurd ?_ notWithin
          have isStart : item :: kept <+: first :: others :=
            (List.prefix_or_prefix_of_prefix (List.prefix_append _ next)
              later).resolve_right fun whole =>
                begins (whole.trans (List.prefix_append _ last))
          obtain ⟨-, keptStart⟩ := List.cons_prefix_cons.mp isStart
          rw [beforeTag_append fun member =>
            once (keptStart.subset member)]
          by_cases noLast : beforeTag (first :: others) last = []
          · rw [noLast, List.append_nil]
            refine ⟨_, List.cons_ne_nil _ _, isStart, ?_, List.suffix_rfl⟩
            intro whole
            exact begins (whole ▸ List.prefix_append _ last)
          · rw [← List.cons_append]
            exact (endsWithin_beforeTag ends noLast).append (item :: kept)
        · rw [List.cons_append, beforeTag, ← List.cons_append, if_neg later]
          refine (List.prefix_cons_inj item).mpr (induction fun within => ?_)
          exact notWithin (within.append [item])

/-- If what is left of a text does not end within a tag, it is the front of
what is left when the text has grown. -/
theorem outside_isPrefix (once : first ∉ others) {closeTag : List α}
    (notWithin :
      ¬ EndsWithin (first :: others) (outside (first :: others) closeTag text))
    (more : List α) :
    outside (first :: others) closeTag text <+:
      outside (first :: others) closeTag (text ++ more) := by
  obtain ⟨kept, last, next, isKept, isNext, ends⟩ :=
    removeFrom_append (first :: others) closeTag text 0 more
  rw [outside, isKept] at notWithin ⊢
  rw [outside, isNext]
  exact beforeTag_grows once next ends notWithin

end Tag

end Blocks
