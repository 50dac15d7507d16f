import Mathlib.Data.List.TakeWhile
import SqlScan.Gap

/-!
# The grammar of a gap

`Trivia` says without any reading what may stand between two tokens: blanks, line comments that run
up to a newline or the end of the source, and block comments up to their first `*/`. Reading a gap
takes trivia, and takes all of the trivia that stands in front of it; a gap is read to its end, so
reading again finds none.

A separator is trivia that no text after it can change, since its line comments end within it.
-/

namespace SqlScan.Gap

/-- A text that is blanks and whole comments, in front of the text `rest`. -/
inductive Trivia (rest : List Char) : List Char → Prop where
  | nil : Trivia rest []
  | blank {c : Char} {gap : List Char} (hblank : Text.isBlank c) (hgap : Trivia rest gap) :
      Trivia rest (c :: gap)
  | line {body gap : List Char} (hbody : '\n' ∉ body)
      (hend : ∀ c ∈ (gap ++ rest).head?, c = '\n') (hgap : Trivia rest gap) :
      Trivia rest ('-' :: '-' :: (body ++ gap))
  | block {body gap : List Char} (hbody : ¬ ['*', '/'] <:+: body) (hgap : Trivia rest gap) :
      Trivia rest ('/' :: '*' :: (body ++ '*' :: '/' :: gap))

/-- One blank, then any blanks, line comments with their newlines and closed block comments. -/
inductive Separator : List Char → Prop where
  | blank {c : Char} (hblank : Text.isBlank c) : Separator [c]
  | andBlank {text : List Char} {c : Char} (h : Separator text) (hblank : Text.isBlank c) :
      Separator (text ++ [c])
  | andLine {text body : List Char} (h : Separator text) (hbody : '\n' ∉ body) :
      Separator (text ++ '-' :: '-' :: (body ++ ['\n']))
  | andBlock {text body : List Char} (h : Separator text) (hbody : ¬ ['*', '/'] <:+: body) :
      Separator (text ++ '/' :: '*' :: (body ++ ['*', '/']))

/-! ### The end of a block comment -/

theorem infix_cons_iff {a b c : Char} {cs : List Char} :
    [a, b] <:+: c :: cs ↔ (c = a ∧ cs.head? = some b) ∨ [a, b] <:+: cs := by
  rw [List.infix_cons_iff]
  cases cs with
  | nil => simp
  | cons d ds => simp [List.cons_prefix_cons, eq_comm]

theorem closing?_of_not_infix {body : List Char} (h : ¬ ['*', '/'] <:+: body)
    (after : List Char) :
    closing? (body ++ '*' :: '/' :: after) = some (body ++ ['*', '/'], after) := by
  induction body with
  | nil => rfl
  | cons c cs ih =>
    rw [infix_cons_iff, not_or] at h
    rw [List.cons_append, closing?]
    · rw [ih h.2]
      rfl
    · intro rest hc hcs
      apply h.1
      refine ⟨hc, ?_⟩
      cases cs with
      | nil => simp at hcs
      | cons d ds => simp_all

theorem not_infix_of_closing? {text comment after : List Char}
    (h : closing? text = some (comment, after)) :
    ∃ body, ¬ ['*', '/'] <:+: body ∧ comment = body ++ ['*', '/'] := by
  fun_induction closing? text generalizing comment with
  | case1 => simp at h
  | case2 rest =>
    simp only [Option.some.injEq, Prod.mk.injEq] at h
    exact ⟨[], by simp, h.1.symm⟩
  | case3 c rest hno ih =>
    obtain ⟨⟨inner, tail⟩, hinner, heq⟩ := Option.map_eq_some_iff.1 h
    simp only [Prod.mk.injEq] at heq
    obtain ⟨rfl, rfl⟩ := heq
    obtain ⟨body, hbody, rfl⟩ := ih hinner
    refine ⟨c :: body, ?_, rfl⟩
    rw [infix_cons_iff, not_or]
    refine ⟨?_, hbody⟩
    intro hopen
    obtain ⟨rfl, hhead⟩ := hopen
    -- the slash would stand in the text itself, where the comment ends
    have htext := append_of_closing? hinner
    cases body with
    | nil => simp at hhead
    | cons d ds =>
      simp only [List.head?_cons, Option.some.injEq] at hhead
      exact hno _ rfl (by rw [← htext, hhead]; rfl)

/-! ### One piece of trivia at a time -/

theorem after_after (e : Ending) (first second : List Char) :
    (e.after second).after first = e.after (first ++ second) := by
  cases e <;> simp [Ending.after]

theorem read_blank {c : Char} (hblank : Text.isBlank c) (rest : List Char) :
    read (c :: rest) = (read rest).after [c] := by
  rw [read]
  · rw [if_pos hblank]
  · intro _ hc
    subst hc
    exact absurd hblank (by decide)
  · intro _ hc
    subst hc
    exact absurd hblank (by decide)

theorem read_line {body rest : List Char} (hbody : '\n' ∉ body)
    (hend : ∀ c ∈ rest.head?, c = '\n') :
    read ('-' :: '-' :: (body ++ rest)) = (read rest).after ('-' :: '-' :: body) := by
  have hinside : ∀ c ∈ body, (c != '\n') = true := by
    intro c hc
    simpa using fun h : c = '\n' => hbody (h ▸ hc)
  have hstop : rest.takeWhile (· != '\n') = [] ∧ rest.dropWhile (· != '\n') = rest := by
    cases rest with
    | nil => exact ⟨rfl, rfl⟩
    | cons c cs =>
      have hc : c = '\n' := hend c rfl
      subst hc
      exact ⟨rfl, rfl⟩
  rw [read, List.takeWhile_append_of_pos hinside, List.dropWhile_append_of_pos hinside, hstop.1,
    hstop.2, List.append_nil]

theorem read_of_closing? {rest comment after : List Char}
    (h : closing? rest = some (comment, after)) :
    read ('/' :: '*' :: rest) = (read after).after ('/' :: '*' :: comment) := by
  rw [read]
  split
  · rename_i hclosing
    rw [h] at hclosing
    obtain ⟨rfl, rfl⟩ := Prod.mk.inj (Option.some.inj hclosing)
    rfl
  · rename_i hclosing
    rw [h] at hclosing
    cases hclosing

theorem read_of_closing?_eq_none {rest : List Char} (h : closing? rest = none) :
    read ('/' :: '*' :: rest) = .unclosed [] ('/' :: '*' :: rest) := by
  rw [read]
  split
  · rename_i hclosing
    rw [h] at hclosing
    cases hclosing
  · rfl

theorem read_block {body : List Char} (hbody : ¬ ['*', '/'] <:+: body) (rest : List Char) :
    read ('/' :: '*' :: (body ++ '*' :: '/' :: rest))
      = (read rest).after ('/' :: '*' :: (body ++ ['*', '/'])) := by
  have hclosing := closing?_of_not_infix hbody rest
  exact read_of_closing? hclosing

/-! ### Reading takes trivia, and all of it -/

/-- Trivia in front of a text is taken before anything of that text is looked at. -/
theorem read_append_of_trivia {gap rest : List Char} (h : Trivia rest gap) :
    read (gap ++ rest) = (read rest).after gap := by
  induction h with
  | nil => cases h : read rest <;> simp [Ending.after, h]
  | @blank c gap hblank _ ih =>
    rw [List.cons_append, read_blank hblank, ih, after_after]
    rfl
  | @line body gap hbody hend _ ih =>
    have htext : '-' :: '-' :: (body ++ gap) ++ rest = '-' :: '-' :: (body ++ (gap ++ rest)) := by
      simp
    rw [htext, read_line hbody hend, ih, after_after]
    rfl
  | @block body gap hbody _ ih =>
    have htext : '/' :: '*' :: (body ++ '*' :: '/' :: gap) ++ rest
        = '/' :: '*' :: (body ++ '*' :: '/' :: (gap ++ rest)) := by
      simp
    rw [htext, read_block hbody, ih, after_after]
    simp

/-- Of the text behind it trivia sees the first character only, and a newline ends it anyway. -/
theorem Trivia.of_head {gap rest rest' : List Char} (h : Trivia rest gap)
    (hhead : ∀ c ∈ rest'.head?, c = '\n' ∨ c ∈ rest.head?) : Trivia rest' gap := by
  induction h with
  | nil => exact .nil
  | blank hblank _ ih => exact .blank hblank ih
  | @line body gap hbody hend _ ih =>
    refine .line hbody ?_ ih
    cases gap with
    | nil =>
      intro c hc
      rcases hhead c hc with hc | hc
      · exact hc
      · exact hend c hc
    | cons d ds => exact hend
  | block hbody _ ih => exact .block hbody ih

def Ending.gap : Ending → List Char
  | .clear gap _ => gap
  | .unclosed gap _ => gap

def Ending.rest : Ending → List Char
  | .clear _ rest => rest
  | .unclosed _ comment => comment

@[simp] theorem Ending.gap_after (front : List Char) (e : Ending) :
    (e.after front).gap = front ++ e.gap := by
  cases e <;> rfl

@[simp] theorem Ending.rest_after (front : List Char) (e : Ending) :
    (e.after front).rest = e.rest := by
  cases e <;> rfl

theorem Ending.gap_append_rest (e : Ending) : e.gap ++ e.rest = e.text := by
  cases e <;> rfl

/-- What is read as a gap is trivia, whether or not a comment without an end follows it. -/
theorem trivia_gap_read (text : List Char) : Trivia (read text).rest (read text).gap := by
  fun_induction read text with
  | case1 rest _ ih =>
    rw [Ending.rest_after, Ending.gap_after]
    refine Trivia.line (fun h => ?_) (fun c hc => ?_) ih
    · simpa using List.mem_takeWhile_imp h
    · rw [Ending.gap_append_rest, text_read] at hc
      have hstop := List.head?_dropWhile_not (fun c => c != '\n') rest
      rw [Option.mem_def] at hc
      rw [hc] at hstop
      simpa using hstop
  | case2 rest comment after h _ ih =>
    obtain ⟨body, hbody, rfl⟩ := not_infix_of_closing? h
    rw [Ending.rest_after, Ending.gap_after]
    simpa using Trivia.block hbody ih
  | case3 => exact .nil
  | case4 c rest _ _ hblank ih =>
    rw [Ending.rest_after, Ending.gap_after]
    exact Trivia.blank hblank ih
  | case5 => exact .nil
  | case6 => exact .nil

theorem trivia_of_clear {text gap rest : List Char} (h : read text = .clear gap rest) :
    Trivia rest gap := by
  simpa [h, Ending.gap, Ending.rest] using trivia_gap_read text

theorem trivia_of_unclosed {text gap comment : List Char}
    (h : read text = .unclosed gap comment) : Trivia comment gap := by
  simpa [h, Ending.gap, Ending.rest] using trivia_gap_read text

theorem read_rest_of_clear {text gap rest : List Char} (h : read text = .clear gap rest) :
    read rest = .clear [] rest := by
  have htext : gap ++ rest = text := by simpa [h, Ending.text] using text_read text
  have hread := read_append_of_trivia (trivia_of_clear h)
  rw [htext, h] at hread
  cases hrest : read rest with
  | clear more left =>
    simp only [hrest, Ending.after, Ending.clear.injEq, List.self_eq_append_right] at hread
    rw [hread.1, ← hread.2]
  | unclosed more comment => simp [hrest, Ending.after] at hread

/-- The texts that no gap begins. -/
theorem read_eq_clear_nil_iff {text : List Char} :
    read text = .clear [] text ↔
      (∀ c ∈ text.head?, ¬ Text.isBlank c) ∧ ¬ ['-', '-'] <+: text ∧ ¬ ['/', '*'] <+: text := by
  constructor
  · intro h
    have hgap : (read text).gap = [] := by rw [h]; rfl
    refine ⟨?_, ?_, ?_⟩
    · intro c hc hblank
      obtain ⟨rest, rfl⟩ : ∃ rest, text = c :: rest := by
        cases text <;> simp_all
      simp [read_blank hblank] at hgap
    · intro hopen
      obtain ⟨rest, rfl⟩ := hopen
      rw [List.cons_append, List.cons_append, List.nil_append, read] at hgap
      simp at hgap
    · intro hopen
      obtain ⟨rest, rfl⟩ := hopen
      rw [List.cons_append, List.cons_append, List.nil_append, read] at h
      split at h
      · have hnil := congrArg Ending.gap h
        rw [Ending.gap_after] at hnil
        simp [Ending.gap] at hnil
      · simp at h
  · intro h
    obtain ⟨hblank, hline, hblock⟩ := h
    cases text with
    | nil => rw [read]
    | cons c rest =>
      rw [read]
      · simp [hblank c rfl]
      · intro tail hc hrest
        subst hc hrest
        exact hline ⟨tail, rfl⟩
      · intro tail hc hrest
        subst hc hrest
        exact hblock ⟨tail, rfl⟩

theorem read_of_head {c : Char} (hblank : Text.isBlank c = false) (hline : c ≠ '-')
    (hblock : c ≠ '/') (rest : List Char) : read (c :: rest) = .clear [] (c :: rest) := by
  rw [read_eq_clear_nil_iff]
  refine ⟨?_, ?_, ?_⟩
  · intro d hd
    rw [List.head?_cons, Option.mem_some_iff] at hd
    subst hd
    simp [hblank]
  · intro h
    exact hline (List.cons_prefix_cons.1 h).1.symm
  · intro h
    exact hblock (List.cons_prefix_cons.1 h).1.symm

/-! ### How a gap ends, both ways -/

/-- A text that no gap begins: it is empty, or it starts with neither a blank nor a comment. -/
structure Clear (text : List Char) : Prop where
  blank : ∀ c ∈ text.head?, ¬ Text.isBlank c
  line : ¬ ['-', '-'] <+: text
  block : ¬ ['/', '*'] <+: text

/-- A block comment that nothing closes. -/
def Unclosed (text : List Char) : Prop :=
  ∃ body, text = '/' :: '*' :: body ∧ ¬ ['*', '/'] <:+: body

theorem clear_iff {text : List Char} : Clear text ↔ read text = .clear [] text := by
  rw [read_eq_clear_nil_iff]
  constructor
  · exact fun h => ⟨h.blank, h.line, h.block⟩
  · exact fun ⟨blank, line, block⟩ => ⟨blank, line, block⟩

theorem closing?_eq_none_iff {text : List Char} :
    closing? text = none ↔ ¬ ['*', '/'] <:+: text := by
  constructor
  · rintro h ⟨front, after, rfl⟩
    -- the first closing is found, wherever this one stands
    induction front with
    | nil => simp [closing?] at h
    | cons c cs ih =>
      rw [List.cons_append, List.cons_append, closing?.eq_def] at h
      split at h
      · rename_i heq
        cases heq
      · cases h
      · rename_i heq
        obtain ⟨rfl, rfl⟩ := List.cons.inj heq
        exact ih (Option.map_eq_none_iff.1 h)
  · intro h
    cases hclosing : closing? text with
    | none => rfl
    | some found =>
      obtain ⟨comment, after⟩ := found
      obtain ⟨body, -, rfl⟩ := not_infix_of_closing? hclosing
      exact absurd ⟨body, after, append_of_closing? hclosing⟩ h

theorem unclosed_iff {text : List Char} : Unclosed text ↔ read text = .unclosed [] text := by
  constructor
  · rintro ⟨body, rfl, hbody⟩
    exact read_of_closing?_eq_none (closing?_eq_none_iff.2 hbody)
  · intro h
    by_cases hblock : ['/', '*'] <+: text
    · obtain ⟨body, rfl⟩ := hblock
      refine ⟨body, rfl, closing?_eq_none_iff.1 ?_⟩
      cases hclosing : closing? body with
      | none => rfl
      | some found =>
        have hgap := congrArg Ending.gap h
        rw [List.cons_append, List.cons_append, List.nil_append, read_of_closing? hclosing,
          Ending.gap_after] at hgap
        cases hgap
    · obtain ⟨body, rfl⟩ := List.head?_eq_some_iff.1 (head?_of_unclosed h)
      have hclear : read ('/' :: body) = .clear [] ('/' :: body) := by
        refine read_eq_clear_nil_iff.2 ⟨?_, ?_, hblock⟩
        · simpa using by decide
        · intro hline
          have hslash : '-' = '/' := (List.cons_prefix_cons.1 hline).1
          cases hslash
      rw [hclear] at h
      cases h

theorem read_rest_of_unclosed {text gap comment : List Char}
    (h : read text = .unclosed gap comment) : read comment = .unclosed [] comment := by
  have htext : gap ++ comment = text := by simpa [h, Ending.text] using text_read text
  have hread := read_append_of_trivia (trivia_of_unclosed h)
  rw [htext, h] at hread
  cases hcomment : read comment with
  | clear more left => simp [hcomment, Ending.after] at hread
  | unclosed more left =>
    simp only [hcomment, Ending.after, Ending.unclosed.injEq, List.self_eq_append_right] at hread
    rw [hread.1, ← hread.2]

/-- The text is trivia and then a text that no gap begins. -/
structure Ends (text gap rest : List Char) : Prop where
  text : text = gap ++ rest
  trivia : Trivia rest gap
  clear : Clear rest

/-- The text is trivia and then a block comment that nothing closes. -/
structure BreaksOff (text gap comment : List Char) : Prop where
  text : text = gap ++ comment
  trivia : Trivia comment gap
  unclosed : Unclosed comment

theorem read_eq_clear_iff {text gap rest : List Char} :
    read text = .clear gap rest ↔ Ends text gap rest := by
  constructor
  · intro h
    have htext : gap ++ rest = text := by simpa [h, Ending.text] using text_read text
    exact ⟨htext.symm, trivia_of_clear h, clear_iff.2 (read_rest_of_clear h)⟩
  · rintro ⟨rfl, htrivia, hclear⟩
    rw [read_append_of_trivia htrivia, clear_iff.1 hclear, Ending.after, List.append_nil]

theorem read_eq_unclosed_iff {text gap comment : List Char} :
    read text = .unclosed gap comment ↔ BreaksOff text gap comment := by
  constructor
  · intro h
    have htext : gap ++ comment = text := by simpa [h, Ending.text] using text_read text
    exact ⟨htext.symm, trivia_of_unclosed h, unclosed_iff.2 (read_rest_of_unclosed h)⟩
  · rintro ⟨rfl, htrivia, hunclosed⟩
    rw [read_append_of_trivia htrivia, unclosed_iff.1 hunclosed, Ending.after, List.append_nil]

/-! ### Separators -/

theorem Separator.read_append {text : List Char} (h : Separator text) (rest : List Char) :
    read (text ++ rest) = (read rest).after text := by
  induction h generalizing rest with
  | blank hblank => exact read_blank hblank rest
  | @andBlank text c _ hblank ih =>
    rw [List.append_assoc, ih, List.singleton_append, read_blank hblank, after_after]
  | @andLine text body _ hbody ih =>
    have htext : text ++ '-' :: '-' :: (body ++ ['\n']) ++ rest
        = text ++ '-' :: '-' :: (body ++ '\n' :: rest) := by
      simp
    rw [htext, ih, read_line hbody (by simp), read_blank (by decide), after_after, after_after]
    simp
  | @andBlock text body _ hbody ih =>
    have htext : text ++ '/' :: '*' :: (body ++ ['*', '/']) ++ rest
        = text ++ '/' :: '*' :: (body ++ '*' :: '/' :: rest) := by
      simp
    rw [htext, ih, read_block hbody, after_after]

theorem Separator.exists_blank {text : List Char} (h : Separator text) :
    ∃ c cs, text = c :: cs ∧ Text.isBlank c := by
  induction h with
  | @blank c hblank => exact ⟨c, [], rfl, hblank⟩
  | andBlank _ _ ih | andLine _ _ ih | andBlock _ _ ih =>
    obtain ⟨d, ds, rfl, hd⟩ := ih
    exact ⟨d, _, rfl, hd⟩

end SqlScan.Gap
