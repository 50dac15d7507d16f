import SqlScan.Proofs.Shapes

/-!
# Names that break off

Reading passes over trivia, with one exception: a dotted name that breaks off at a quote that nothing
closes is a fault from that quote on, and the segments before the quote are passed over with the
trivia before them. `trivia_passed_iff` says that this is the only exception.
-/

namespace SqlScan

/-- Trivia, then a name that breaks off, and the rest of the source. -/
structure Lexeme.BrokenName (gap name quoted text : List Char) : Prop where
  text_eq : text = gap ++ (name ++ quoted)
  trivia : Gap.Trivia (name ++ quoted) gap
  breaksOff : Name.BreaksOff name quoted

/-! ### Names ahead -/

/-- A segment begins no gap. -/
theorem Segment.clear_text_append {s : Segment} (hs : s.WellFormed) (rest : List Char) :
    Gap.read (s.text ++ rest) = .clear [] (s.text ++ rest) := by
  obtain ⟨c, cs, hhead, hblank, hline, hblock⟩ : ∃ c cs, s.text ++ rest = c :: cs ∧
      Text.isBlank c = false ∧ c ≠ '-' ∧ c ≠ '/' := by
    cases s with
    | bare word =>
      obtain ⟨⟨c, cs, rfl, hstart, -⟩, -⟩ := hs
      exact ⟨c, cs ++ rest, rfl, Word.not_gap_of_isStart hstart⟩
    | quoted value => exact ⟨'"', _, rfl, by decide, by decide, by decide⟩
  rw [hhead]
  exact Gap.read_of_head hblank hline hblock cs

namespace Lexeme

theorem front_segment {s : Segment} {rest : List Char} (hs : s.WellFormed)
    (hend : s.EndsBefore rest) : front (s.text ++ rest) = ofName s rest := by
  cases s with
  | bare word =>
    obtain ⟨⟨c, cs, rfl, hstart, hpart⟩, hreserved⟩ := hs
    obtain ⟨htake, hdrop⟩ := Text.span_run hpart hend
    simp only [Word.isReserved, Bool.or_eq_false_iff, Option.isSome_eq_false_iff,
      Option.isNone_iff_eq_none] at hreserved
    rw [Segment.text, List.cons_append, front, ofChar_start hstart, htake, hdrop, ofWord,
      hreserved.1, hreserved.2]
  | quoted value =>
    have hread := Quoted.read?_encode value hend
    have htext : Segment.text (.quoted value) ++ rest
        = '"' :: (Quoted.encode '"' value ++ '"' :: rest) := by
      simp [Segment.text, Quoted.text]
    rw [htext, front, ofChar_quote, ofQuotedName, hread]

theorem front_of_breaksOff {name quoted : List Char} (h : Name.BreaksOff name quoted) :
    front (name ++ quoted) = ⟨name, quoted, [], .fault .unterminatedString⟩ := by
  obtain ⟨first, segments, value, hfirst, hsegments, rfl, rfl⟩ := h
  let tail := Name.continued segments ++ '.' :: '"' :: Quoted.encode '"' value
  have hcontinuation : Name.continuation tail
      = .unclosed segments ('"' :: Quoted.encode '"' value) := by
    rw [Name.continuation_continued hsegments fun s _ => Segment.endsBefore_dot _ s,
      Name.continuation_unclosed, Name.Continuation.foldr_cons_unclosed]
  obtain ⟨rest, hrest⟩ : ∃ rest, tail = '.' :: rest := by
    cases segments with
    | nil => exact ⟨_, rfl⟩
    | cons s more => exact ⟨_, rfl⟩
  have htext : first.text ++ Name.continued segments ++ ['.'] ++ '"' :: Quoted.encode '"' value
      = first.text ++ tail := by
    simp [tail]
  rw [htext, hrest, front_segment hfirst (Segment.endsBefore_dot rest first), ← hrest, ofName,
    hcontinuation]

theorem BrokenName.gap_read {gap name quoted text : List Char}
    (h : BrokenName gap name quoted text) : Gap.read text = .clear gap (name ++ quoted) := by
  obtain ⟨first, segments, value, hfirst, -, rfl, rfl⟩ := h.breaksOff
  have hclear := Segment.clear_text_append hfirst
    (Name.continued segments ++ ['.'] ++ '"' :: Quoted.encode '"' value)
  rw [h.text_eq, Gap.read_append_of_trivia h.trivia]
  simp only [List.append_assoc] at hclear ⊢
  rw [hclear, Gap.Ending.after, List.append_nil]

/-- A name that breaks off is passed over, and what is read is the fault behind it. -/
theorem BrokenName.read {gap name quoted text : List Char} (h : BrokenName gap name quoted text) :
    read text = ⟨gap ++ name, quoted, [], .fault .unterminatedString⟩ := by
  rw [Lexeme.read, h.gap_read]
  simp only [front_of_breaksOff h.breaksOff, behind]

/-- No trivia that begins the text reaches into the name. -/
theorem BrokenName.exists_append {gap name quoted text : List Char}
    (h : BrokenName gap name quoted text) {front rest : List Char} (htext : text = front ++ rest)
    (htrivia : Gap.Trivia rest front) : ∃ more, gap = front ++ more := by
  have hread := Gap.read_append_of_trivia htrivia
  rw [← htext, h.gap_read] at hread
  have hgap := congrArg Gap.Ending.gap hread
  rw [Gap.Ending.gap_after] at hgap
  exact ⟨_, hgap⟩

/-! ### What is passed over -/

theorem trivia_or_brokenName (text : List Char) :
    Gap.Trivia ((read text).covered ++ (read text).rest) (read text).passed ∨
      ∃ gap name quoted, BrokenName gap name quoted text := by
  cases hgap : Gap.read text with
  | unclosed gap comment =>
    left
    simp only [read, hgap, List.append_nil]
    exact Gap.trivia_of_unclosed hgap
  | clear gap rest =>
    have htrivia := Gap.trivia_of_clear hgap
    have hsource := source_front rest
    have hshape := shape_front rest
    obtain ⟨hread, htext⟩ := read_of_clear hgap
    rw [hread]
    generalize front rest = x at hsource hshape ⊢
    cases hshape with
    | token | fault =>
      left
      rw [source, List.nil_append] at hsource
      rw [behind, List.append_nil, hsource]
      exact htrivia
    | @broken name quoted hbreaks =>
      right
      rw [source, List.append_nil] at hsource
      rw [← hsource] at htrivia htext
      exact ⟨gap, name, quoted, htext.symm, htrivia, hbreaks⟩

/-- Only a name that breaks off makes what is passed over anything but trivia. -/
theorem trivia_passed_iff (text : List Char) :
    Gap.Trivia ((read text).covered ++ (read text).rest) (read text).passed ↔
      ¬ ∃ gap name quoted, BrokenName gap name quoted text := by
  constructor
  · intro htrivia ⟨gap, name, quoted, hbroken⟩
    obtain ⟨first, segments, value, -, -, hname, -⟩ := hbroken.breaksOff
    have hsource := source_read text
    rw [source, List.append_assoc] at hsource
    obtain ⟨more, hmore⟩ := hbroken.exists_append hsource.symm htrivia
    rw [hbroken.read] at hmore
    have hlength := congrArg List.length hmore
    simp only [hname, List.length_append, List.length_singleton] at hlength
    omega
  · intro hnone
    exact (trivia_or_brokenName text).resolve_right hnone

end Lexeme

end SqlScan
