import Mathlib.Data.List.Basic
import Mathlib.Data.List.TakeWhile
import SqlScan.Name
import SqlScan.Proofs.Characters

/-!
# Dotted names read from what is written

A name is read segment by segment. `continuation_continued` is the statement the rest uses: segments
written one after another are read as those segments, provided that the text behind them goes on
with neither the last segment nor the name. The same holds of a name that breaks off at a quote that
nothing closes, and a body without an end is exactly one whose every quote is doubled.
-/

namespace SqlScan

/-! ### Bodies without an end -/

theorem Quoted.read?_encode_eq_none (quote : Char) (value : List Char) :
    Quoted.read? quote (Quoted.encode quote value) = none := by
  induction value with
  | nil => rfl
  | cons c cs ih =>
    by_cases hc : c = quote
    · simp [Quoted.encode, Quoted.read?, hc, ih]
    · rw [Quoted.encode, if_neg hc]
      cases h : Quoted.encode quote cs with
      | nil => simp [Quoted.read?, hc]
      | cons d ds =>
        rw [h] at ih
        simp [Quoted.read?, hc, ih]

theorem Quoted.head?_of_read? {quote : Char} {body value rest : List Char}
    (h : Quoted.read? quote body = some (value, rest)) : rest.head? ≠ some quote := by
  fun_induction Quoted.read? quote body generalizing value with
  | case1 => simp at h
  | case2 =>
    obtain ⟨-, rfl⟩ := Prod.mk.inj (Option.some.inj h)
    simp
  | case3 => simp at h
  | case4 cs ih | case6 c d cs hc ih =>
    obtain ⟨⟨inner, after⟩, hread, heq⟩ := Option.map_eq_some_iff.1 h
    obtain ⟨-, rfl⟩ := Prod.mk.inj heq
    exact ih hread
  | case5 d cs hd =>
    obtain ⟨-, rfl⟩ := Prod.mk.inj (Option.some.inj h)
    simpa using hd

/-! ### Words and segments -/

def Word.IsWord (word : List Char) : Prop :=
  ∃ c cs, word = c :: cs ∧ Word.isStart c ∧ ∀ d ∈ cs, Word.isPart d

theorem Word.isPart_of_isStart {c : Char} (h : Word.isStart c) : Word.isPart c := by
  simp only [Word.isStart, Bool.or_eq_true] at h
  simp only [Word.isPart, Bool.or_eq_true]
  rcases h with hletter | hunderscore
  · exact Or.inl (Or.inl hletter)
  · exact Or.inr hunderscore

theorem Text.isStart_of_isBlank {c : Char} (h : isBlank c) : Word.isStart c = false := by
  rw [Bool.eq_false_iff]
  intro hstart
  have hpart := Word.isPart_of_isStart hstart
  rw [isPart_of_isBlank h] at hpart
  cases hpart

/-- A character that begins a word begins no gap. -/
theorem Word.not_gap_of_isStart {c : Char} (h : Word.isStart c) :
    Text.isBlank c = false ∧ c ≠ '-' ∧ c ≠ '/' := by
  refine ⟨?_, ?_, ?_⟩
  · rw [Bool.eq_false_iff]
    intro hblank
    rw [Text.isStart_of_isBlank hblank] at h
    cases h
  · rintro rfl
    exact absurd h (by decide)
  · rintro rfl
    exact absurd h (by decide)

theorem Word.isWord_takeWhile {c : Char} (cs : List Char) (h : Word.isStart c) :
    Word.IsWord (c :: cs.takeWhile Word.isPart) :=
  ⟨c, _, rfl, h, fun _ hd => List.mem_takeWhile_imp hd⟩

namespace Segment

/-- A bare segment is a word that is not reserved; a quoted one holds any text. -/
def WellFormed : Segment → Prop
  | .bare word => Word.IsWord word ∧ Word.isReserved word = false
  | .quoted _ => True

/-- The text `rest` does not go on with the segment. -/
def EndsBefore (rest : List Char) : Segment → Prop
  | .bare _ => ∀ c ∈ rest.head?, Word.isPart c = false
  | .quoted _ => rest.head? ≠ some '"'

theorem endsBefore_dot (rest : List Char) (s : Segment) : s.EndsBefore ('.' :: rest) := by
  cases s with
  | bare word =>
    intro c hc
    rw [List.head?_cons, Option.mem_some_iff] at hc
    subst hc
    decide
  | quoted value => simp [EndsBefore]

end Segment

namespace Name

theorem continuation_of_read? {body value rest : List Char}
    (h : Quoted.read? '"' body = some (value, rest)) :
    continuation ('.' :: '"' :: body) = (continuation rest).cons (.quoted value) := by
  rw [continuation]
  split
  · rename_i hread
    rw [h] at hread
    obtain ⟨rfl, rfl⟩ := Prod.mk.inj (Option.some.inj hread)
    rfl
  · rename_i hread
    rw [h] at hread
    cases hread

theorem continuation_of_read?_eq_none {body : List Char} (h : Quoted.read? '"' body = none) :
    continuation ('.' :: '"' :: body) = .unclosed [] ('"' :: body) := by
  rw [continuation]
  split
  · rename_i hread
    rw [h] at hread
    cases hread
  · rfl

theorem continuation_dot {c : Char} (h : c ≠ '"') (cs : List Char) :
    continuation ('.' :: c :: cs) =
      if Word.isStart c && !Word.isReserved (c :: cs.takeWhile Word.isPart) then
        (continuation (cs.dropWhile Word.isPart)).cons (.bare (c :: cs.takeWhile Word.isPart))
      else
        .complete [] ('.' :: c :: cs) := by
  rw [continuation]
  exact h

theorem continuation_segment {s : Segment} {rest : List Char} (hs : s.WellFormed)
    (hend : s.EndsBefore rest) :
    continuation ('.' :: (s.text ++ rest)) = (continuation rest).cons s := by
  cases s with
  | bare word =>
    obtain ⟨⟨c, cs, rfl, hstart, hpart⟩, hreserved⟩ := hs
    obtain ⟨htake, hdrop⟩ := Text.span_run hpart hend
    have hquote : c ≠ '"' := by
      intro hc
      subst hc
      exact absurd hstart (by decide)
    rw [Segment.text, List.cons_append, continuation_dot hquote]
    simp [htake, hdrop, hstart, hreserved]
  | quoted value =>
    have htext : '.' :: (Segment.text (.quoted value) ++ rest)
        = '.' :: '"' :: (Quoted.encode '"' value ++ '"' :: rest) := by
      simp [Segment.text, Quoted.text]
    rw [htext, continuation_of_read? (Quoted.read?_encode value hend)]

theorem continuation_of_head {rest : List Char} (h : rest.head? ≠ some '.') :
    continuation rest = .complete [] rest := by
  rw [continuation]
  · intro body hbody
    subst hbody
    simp at h
  · intro c cs hcs
    subst hcs
    simp at h

theorem Continuation.foldr_cons_complete (segments : List Segment) (rest : List Char) :
    segments.foldr cons (.complete [] rest) = .complete segments rest := by
  induction segments with
  | nil => rfl
  | cons s more ih => rw [List.foldr_cons, ih, cons]

theorem Continuation.foldr_cons_unclosed (segments : List Segment) (quoted : List Char) :
    segments.foldr cons (.unclosed [] quoted) = .unclosed segments quoted := by
  induction segments with
  | nil => rfl
  | cons s more ih => rw [List.foldr_cons, ih, cons]

theorem endsBefore_continued {first : Segment} {more : List Segment} {rest : List Char}
    (h : ∀ s ∈ (first :: more).getLast?, s.EndsBefore rest) :
    first.EndsBefore (continued more ++ rest) := by
  cases more with
  | nil => exact h first rfl
  | cons s more => exact Segment.endsBefore_dot _ first

/-- Segments in front of a text are read before it. -/
theorem continuation_continued {segments : List Segment} {rest : List Char}
    (hsegments : ∀ s ∈ segments, s.WellFormed)
    (hlast : ∀ s ∈ segments.getLast?, s.EndsBefore rest) :
    continuation (continued segments ++ rest)
      = segments.foldr Continuation.cons (continuation rest) := by
  induction segments with
  | nil => rfl
  | cons s more ih =>
    obtain ⟨hs, hmore⟩ := List.forall_mem_cons.1 hsegments
    have htext : continued (s :: more) ++ rest = '.' :: (s.text ++ (continued more ++ rest)) := by
      simp [continued]
    rw [htext, continuation_segment hs (endsBefore_continued hlast),
      ih hmore fun t ht => hlast t (List.mem_getLast?_cons ht)]
    rfl

theorem continuation_unclosed (value : List Char) :
    continuation ('.' :: '"' :: Quoted.encode '"' value)
      = .unclosed [] ('"' :: Quoted.encode '"' value) :=
  continuation_of_read?_eq_none (Quoted.read?_encode_eq_none '"' value)

/-! ### What reading a name finds -/

def Continuation.segments : Continuation → List Segment
  | .complete segments _ => segments
  | .unclosed segments _ => segments

@[simp] theorem Continuation.segments_cons (s : Segment) (k : Continuation) :
    (k.cons s).segments = s :: k.segments := by
  cases k <;> rfl

theorem wellFormed_continuation (text : List Char) :
    ∀ s ∈ (continuation text).segments, s.WellFormed := by
  fun_induction continuation text with
  | case1 body value rest h _ ih =>
    intro s hs
    rw [Continuation.segments_cons, List.mem_cons] at hs
    rcases hs with rfl | hs
    · exact trivial
    · exact ih s hs
  | case2 => simp [Continuation.segments]
  | case3 c cs _ word hword _ ih =>
    intro s hs
    rw [Continuation.segments_cons, List.mem_cons] at hs
    simp only [Bool.and_eq_true, Bool.not_eq_true'] at hword
    rcases hs with rfl | hs
    · exact ⟨Word.isWord_takeWhile cs hword.1, hword.2⟩
    · exact ih s hs
  | case4 => simp [Continuation.segments]
  | case5 => simp [Continuation.segments]

theorem Continuation.exists_of_cons_eq_complete {s : Segment} {k : Continuation}
    {segments : List Segment} {rest : List Char} (h : k.cons s = .complete segments rest) :
    ∃ more, k = .complete more rest ∧ segments = s :: more := by
  cases k with
  | complete more left =>
    obtain ⟨rfl, rfl⟩ := Continuation.complete.inj h
    exact ⟨more, rfl, rfl⟩
  | unclosed more quoted => cases h

theorem endsBefore_getLast {first : Segment} {more : List Segment} {after rest : List Char}
    (h : continuation after = .complete more rest) (hfirst : first.EndsBefore after)
    (hmore : ∀ s ∈ more.getLast?, s.EndsBefore rest) :
    ∀ s ∈ (first :: more).getLast?, s.EndsBefore rest := by
  cases more with
  | nil =>
    have hafter : rest = after := by
      simpa [h, Continuation.text, continued] using text_continuation after
    intro s hs
    rw [List.getLast?_singleton, Option.mem_some_iff] at hs
    rw [← hs, hafter]
    exact hfirst
  | cons t ts => simpa using hmore

/-- What a name leaves goes on neither with its last segment nor with the name. -/
theorem rest_of_complete {text rest : List Char} {segments : List Segment}
    (h : continuation text = .complete segments rest) :
    (∀ s ∈ segments.getLast?, s.EndsBefore rest) ∧ continuation rest = .complete [] rest := by
  fun_induction continuation text generalizing segments with
  | case1 body value after hread _ ih =>
    obtain ⟨more, hmore, rfl⟩ := Continuation.exists_of_cons_eq_complete h
    obtain ⟨hends, hrest⟩ := ih hmore
    exact ⟨endsBefore_getLast hmore (Quoted.head?_of_read? hread) hends, hrest⟩
  | case2 => cases h
  | case3 c cs _ _ =>
    rename_i ih
    obtain ⟨more, hmore, rfl⟩ := Continuation.exists_of_cons_eq_complete h
    obtain ⟨hends, hrest⟩ := ih hmore
    exact ⟨endsBefore_getLast hmore (Text.head_dropWhile _ cs) hends, hrest⟩
  | case4 c cs hquote word =>
    rename_i hword
    obtain ⟨rfl, rfl⟩ := Continuation.complete.inj h
    refine ⟨by simp, ?_⟩
    rw [continuation]
    · exact if_neg hword
    · exact hquote
  | case5 text hquote hdot =>
    obtain ⟨rfl, rfl⟩ := Continuation.complete.inj h
    refine ⟨by simp, ?_⟩
    rw [continuation]
    · exact hquote
    · exact hdot

/-- A name ends before a dot unless a quote stands behind the dot, or a word that is not reserved. -/
theorem continuation_dot_iff {after : List Char} :
    continuation ('.' :: after) = .complete [] ('.' :: after) ↔
      after.head? ≠ some '"' ∧
        ∀ c ∈ after.head?, Word.isStart c → Word.isReserved (after.takeWhile Word.isPart) := by
  cases after with
  | nil => simp [continuation]
  | cons c cs =>
    by_cases hquote : c = '"'
    · subst hquote
      simp only [List.head?_cons, ne_eq, not_true_eq_false, false_and, iff_false]
      intro h
      rw [continuation] at h
      split at h
      · obtain ⟨more, -, hnil⟩ := Continuation.exists_of_cons_eq_complete h
        cases hnil
      · cases h
    · rw [continuation]
      · by_cases hstart : Word.isStart c
        · have hword := List.takeWhile_cons_of_pos (l := cs) (Word.isPart_of_isStart hstart)
          by_cases hreserved : Word.isReserved (c :: cs.takeWhile Word.isPart)
          · simp [hquote, hstart, hreserved, hword]
          · have hne : ∀ k : Continuation, k.cons (.bare (c :: cs.takeWhile Word.isPart))
                ≠ .complete [] ('.' :: c :: cs) := by
              intro k h
              obtain ⟨more, -, hnil⟩ := Continuation.exists_of_cons_eq_complete h
              cases hnil
            simp [hquote, hstart, hreserved, hword, hne]
        · simp [hquote, hstart]
      · exact hquote

end Name

end SqlScan
