import SqlScan.Proofs.Replies
import SqlScan.Proofs.Scanner.Sessions

/-!
# The places of a scanner and of what it answers

A scanner cuts its source at offsets that it has added up, and tells the places of what it answers by a
count that it keeps beside them. Neither goes wrong. After any steps both of its marks are at
character boundaries of the source, in order, at the locations that counting from the start of the
source gives, and so is whatever it has answered on the way. That no step breaks down says the same of
the slices that were taken within the steps.
-/

namespace SqlScan

/-- The mark is at a character boundary of the source, and counting from the start gives its location. -/
structure Mark.PlacedIn (source : List Char) (m : Mark) : Prop where
  boundary : (Text.cut? m.offset source).isSome
  location : Location.ofOffset? source m.offset = some m.location

/-- The source has a slice at the item's span, and counting from the start gives its location. -/
structure Item.PlacedIn (source : List Char) (item : Item) : Prop where
  slice : (item.span.slice? source).isSome
  location : Location.ofOffset? source item.span.start = some item.location

/-- Both marks of the scanner are in the source, in order. -/
structure Scanner.PlacedIn (source : List Char) (s : Scanner) : Prop where
  same_source : s.source = source
  start : s.start.PlacedIn source
  mark : s.mark.PlacedIn source
  ordered : s.start.offset ≤ s.position
  inside : s.position ≤ Text.size source

/-! ### Marks -/

theorem Location.ofOffset?_of_counts {seen behind : List Char} (h : origin.counts (seen ++ behind)) :
    ofOffset? (seen ++ behind) (Text.size seen) = some (origin.after seen) := by
  rw [counts_append, Bool.and_eq_true] at h
  rw [ofOffset?_append, checked_of_counts h.1]

theorem Mark.placedIn_append {seen behind : List Char}
    (h : Location.origin.counts (seen ++ behind)) :
    (Mark.origin.after seen).PlacedIn (seen ++ behind) where
  boundary := by rw [origin_after_offset, Text.cut?_append, Option.isSome_some]
  location := by
    rw [origin_after_offset, Location.ofOffset?_of_counts h, location_after]
    rfl

theorem Scanner.Took.placedIn {s : Scanner} {taken ahead : List Char} (h : s.Took taken ahead)
    (hsource : Location.origin.counts s.source) : s.PlacedIn s.source := by
  obtain ⟨seen, hparts, hstart, hmark⟩ := h
  rw [hstart, ← Mark.after_append] at hmark
  rw [hparts] at hsource
  have hfront : seen ++ taken ++ ahead = seen ++ (taken ++ ahead) := List.append_assoc ..
  refine ⟨rfl, ?_, ?_, ?_, ?_⟩
  · rw [hparts, hstart, hfront]
    exact Mark.placedIn_append (hfront ▸ hsource)
  · rw [hparts, hmark]
    exact Mark.placedIn_append hsource
  · rw [position, hstart, hmark, Mark.origin_after_offset, Mark.origin_after_offset,
      Text.size_append]
    exact Nat.le_add_right ..
  · rw [position, hparts, hmark, Mark.origin_after_offset, Text.size_append _ ahead]
    exact Nat.le_add_right ..

/-! ### Items -/

namespace Cursor

variable {c : Cursor}

theorem Consistent.placedIn_next (h : c.Consistent) (hsource : Location.origin.counts c.source) :
    c.next.1.PlacedIn c.source := by
  obtain ⟨seen, hparts, -, hstart, hstop, hlocation, -⟩ := h.split
  have hslice := Text.slice?_append (seen ++ c.passed) c.covered c.next.2.ahead
  have hbehind : c.source = (seen ++ c.passed) ++ (c.covered ++ c.next.2.ahead) := by
    rw [hparts, List.append_assoc]
  refine ⟨?_, ?_⟩
  · rw [Span.slice?, hstart, hstop, hparts, hslice, Option.isSome_some]
  · rw [hbehind] at hsource
    rw [hstart, hlocation, hbehind, Location.ofOffset?_of_counts hsource]

/-- The token that closes a stream where a limit stopped it is in the source as well. -/
theorem Consistent.placedIn_endOfFile (h : c.Consistent)
    (hsource : Location.origin.counts c.source) :
    (Item.token (.endOfFile (c.mark.spanTo c.mark) c.mark.location)).PlacedIn c.source := by
  have hslice := slice?_endOfFile h
  obtain ⟨seen, hparts, hmark⟩ := h
  rw [hparts] at hsource
  have hplaced := Mark.placedIn_append hsource
  rw [← hparts, ← hmark] at hplaced
  refine ⟨?_, hplaced.location⟩
  show ((c.mark.spanTo c.mark).slice? c.source).isSome
  rw [hslice, Option.isSome_some]

end Cursor

theorem Item.ReadIn.placedIn {source : List Char} {item : Item} (h : item.ReadIn source)
    (hsource : Location.origin.counts source) : item.PlacedIn source := by
  obtain ⟨c, hc, rfl, rfl | rfl⟩ := h
  · exact hc.placedIn_next hsource
  · exact hc.placedIn_endOfFile hsource

/-! ### Replies -/

namespace Session

variable {x : Session}

theorem consistent_trace (hx : x.cursor.Consistent) (steps : List Step) :
    (x.trace steps).2.cursor.Consistent ∧ (x.trace steps).2.cursor.source = x.cursor.source := by
  induction steps generalizing x with
  | nil => exact ⟨hx, rfl⟩
  | cons step steps ih =>
    obtain ⟨hconsistent, hsource⟩ := consistent_perform hx step
    obtain ⟨hlast, hlast_source⟩ := ih hconsistent
    exact ⟨hlast, hlast_source.trans hsource⟩

theorem placedIn_trace (hx : x.cursor.Consistent)
    (hsource : Location.origin.counts x.cursor.source) (steps : List Step) :
    ∀ outcome ∈ (x.trace steps).1, ∀ item ∈ outcome.reply.items, item.PlacedIn x.cursor.source := by
  intro outcome houtcome item hitem
  exact (readIn_trace hx steps outcome houtcome item hitem).placedIn hsource

end Session

/-- In a source that can be counted no step breaks down, and a scanner shows what a session shows. After
any steps both of its marks are in the source, and so are all tokens and faults that it answered. -/
theorem scanner_placed (settings : Settings) (source : List Char)
    (hsource : Location.origin.counts source) (steps : List Step) :
    ∃ outcomes s, (Scanner.ofSource settings source).trace steps = some (outcomes, s) ∧
      outcomes = ((Session.ofSource settings source).trace steps).1 ∧
      s.PlacedIn source ∧
      ∀ outcome ∈ outcomes, ∀ item ∈ outcome.reply.items, item.PlacedIn source := by
  let x := Session.ofSource settings source
  have hconsistent : x.cursor.Consistent := Cursor.consistent_ofSource source
  obtain ⟨s, hs, htrace⟩ :=
    (Scanner.follows_ofSource settings source).trace_eq_some hsource steps
  obtain ⟨-, hlast⟩ := Session.consistent_trace hconsistent steps
  have hs_source : s.source = source := hs.stands.source.trans hlast
  obtain ⟨taken, htook⟩ := hs.stands.took
  have hplaced := htook.placedIn (hs_source ▸ hsource)
  rw [hs_source] at hplaced
  exact ⟨_, s, htrace, rfl, hplaced, Session.placedIn_trace hconsistent hsource steps⟩

/-- Through a comment that is not closed, into a character and back. -/
theorem scanner_placed_comment :
    let source := "é.\"ß\n\" /*ü".toList
    let steps : List Step := [.next, .batch, .seek 1, .seek 2, .strict, .run]
    Location.origin.counts source ∧
      ∃ outcomes s, (Scanner.ofSource .batch source).trace steps = some (outcomes, s) ∧
        outcomes = ((Session.ofSource .batch source).trace steps).1 ∧
        s.PlacedIn source ∧
        ∀ outcome ∈ outcomes, ∀ item ∈ outcome.reply.items, item.PlacedIn source := by
  intro source steps
  have hsource : Location.origin.counts source := by decide
  exact ⟨hsource, scanner_placed .batch source hsource steps⟩

end SqlScan
