import SqlScan.Text.Classes

/-!
# Gaps between tokens

What stands between two tokens is blanks and comments. A line comment runs from two hyphens up to
the end of its line, which is a blank again. A block comment runs from `/*` to the first `*/` after
those two characters, so an opening inside it counts for nothing. One that never closes takes the
rest of the source with it.
-/

namespace SqlScan.Gap

/-- The text up to and including the first `*/`, and the text after it. -/
def closing? : List Char → Option (List Char × List Char)
  | [] => none
  | '*' :: '/' :: rest => some (['*', '/'], rest)
  | c :: rest => (closing? rest).map fun (comment, after) => (c :: comment, after)

theorem append_of_closing? {text comment after : List Char}
    (h : closing? text = some (comment, after)) : comment ++ after = text := by
  fun_induction closing? text generalizing comment with
  | case1 => simp at h
  | case2 rest =>
    simp only [Option.some.injEq, Prod.mk.injEq] at h
    obtain ⟨rfl, rfl⟩ := h
    rfl
  | case3 c rest _ ih =>
    obtain ⟨⟨inner, tail⟩, hinner, heq⟩ := Option.map_eq_some_iff.1 h
    simp only [Prod.mk.injEq] at heq
    obtain ⟨rfl, rfl⟩ := heq
    simp [ih hinner]

/-- How a gap ends: before text that belongs to no gap, or at a comment that never closes. -/
inductive Ending where
  | clear (gap rest : List Char)
  | unclosed (gap comment : List Char)
  deriving DecidableEq, Repr

def Ending.after (front : List Char) : Ending → Ending
  | .clear gap rest => .clear (front ++ gap) rest
  | .unclosed gap comment => .unclosed (front ++ gap) comment

def Ending.text : Ending → List Char
  | .clear gap rest => gap ++ rest
  | .unclosed gap comment => gap ++ comment

@[simp] theorem Ending.text_after (front : List Char) (e : Ending) :
    (e.after front).text = front ++ e.text := by
  cases e <;> simp [Ending.after, Ending.text]

/-- The gap that begins a text. -/
def read : List Char → Ending
  | '-' :: '-' :: rest =>
    have : (rest.dropWhile (· != '\n')).length ≤ rest.length := (List.dropWhile_sublist _).length_le
    (read (rest.dropWhile (· != '\n'))).after ('-' :: '-' :: rest.takeWhile (· != '\n'))
  | '/' :: '*' :: rest =>
    match h : closing? rest with
    | some (comment, after) =>
      have : after.length ≤ rest.length := by
        rw [← append_of_closing? h, List.length_append]
        omega
      (read after).after ('/' :: '*' :: comment)
    | none => .unclosed [] ('/' :: '*' :: rest)
  | c :: rest => if Text.isBlank c then (read rest).after [c] else .clear [] (c :: rest)
  | [] => .clear [] []
termination_by text => text.length

theorem text_read (text : List Char) : (read text).text = text := by
  fun_induction read text with
  | case1 rest _ ih => simp [ih, List.takeWhile_append_dropWhile]
  | case2 rest comment after h _ ih => simp [ih, append_of_closing? h]
  | case3 => simp [Ending.text]
  | case4 c rest _ _ _ ih => simp [ih]
  | case5 => simp [Ending.text]
  | case6 => simp [Ending.text]

theorem head?_of_unclosed {text gap comment : List Char}
    (h : read text = .unclosed gap comment) : comment.head? = some '/' := by
  fun_induction read text generalizing gap with
  | case1 rest _ ih =>
    cases hr : read (rest.dropWhile (· != '\n')) with
    | clear => simp [hr, Ending.after] at h
    | unclosed =>
      simp only [hr, Ending.after, Ending.unclosed.injEq] at h
      exact ih (h.2 ▸ hr)
  | case2 rest _ after _ _ ih =>
    cases hr : read after with
    | clear => simp [hr, Ending.after] at h
    | unclosed =>
      simp only [hr, Ending.after, Ending.unclosed.injEq] at h
      exact ih (h.2 ▸ hr)
  | case3 =>
    simp only [Ending.unclosed.injEq] at h
    simp [← h.2]
  | case4 c rest _ _ _ ih =>
    cases hr : read rest with
    | clear => simp [hr, Ending.after] at h
    | unclosed =>
      simp only [hr, Ending.after, Ending.unclosed.injEq] at h
      exact ih (h.2 ▸ hr)
  | case5 => simp at h
  | case6 => simp at h

end SqlScan.Gap
