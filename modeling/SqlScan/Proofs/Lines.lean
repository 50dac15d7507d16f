import SqlScan.Proofs.Places
import SqlScan.Proofs.Resumption
import SqlScan.Proofs.Scanner.Sessions

/-!
# Lines read one after another

A newline behind a text changes nothing of what is read in it: no reader looks past a newline, and a
line comment ends there as it would end with the source. Only a quote or a block comment that never
closes goes on over the newline. So a source is read line after line, and what stands in the lines
below is the same as in a source of its own, further down.

A scanner counts on where the lines above end, so it scans the lines below if it scans them in a source
of their own and the lines of both together are not too many to be counted.
-/

namespace SqlScan

/-- Before a newline as before the end of the source, all that is left can be trivia. -/
theorem Lexeme.read_append_newline_of_endOfFile {text : List Char}
    (h : (read text).content = .token .endOfFile) (second : List Char) :
    read (text ++ '\n' :: second) = (read second).behind (text ++ ['\n']) := by
  obtain ⟨htrivia, hcovered⟩ := trivia_passed_of_token h
  have hcovered : (read text).covered = [] := hcovered
  have hsource := source_read text
  rw [source, hcovered, rest_of_endOfFile h, List.append_nil, List.append_nil] at hsource
  rw [hsource, hcovered, rest_of_endOfFile h, List.append_nil] at htrivia
  have htrivia : Gap.Trivia ('\n' :: second) text :=
    htrivia.of_head fun c hc => .inl (Option.some.inj hc).symm
  have hsplit : text ++ '\n' :: second = text ++ ['\n'] ++ second := by simp
  rw [hsplit]
  apply read_append_of_gap
  rw [← hsplit, Gap.read_append_of_trivia htrivia, Gap.read_blank (by decide), Gap.after_after]

namespace Cursor

variable {c d : Cursor} {second : List Char}

theorem next_append_newline (hahead : d.ahead = c.ahead ++ '\n' :: second) (hmark : d.mark = c.mark)
    (hclosed : c.next.1.Closed) :
    d.next.1 = c.next.1 ∧ d.next.2.ahead = c.next.2.ahead ++ '\n' :: second ∧
      d.next.2.mark = c.next.2.mark := by
  have hstands := Text.StandsFor.append (.cons (c := '\n') (by decide) second) (Lexeme.read c.ahead).rest
  have hread := (Lexeme.read_before (closed_of_next hclosed) hstands).1
  have hsource := Lexeme.source_read c.ahead
  rw [Lexeme.source] at hsource
  rw [← List.append_assoc, hsource, ← hahead] at hread
  simp only [next, hread, hmark, Lexeme.before, Lexeme.item, and_self]

/-- Of a text with a newline and more behind it first the text's own items are read, and then what
is read behind the newline. -/
theorem block_append_newline (hahead : d.ahead = c.ahead ++ '\n' :: second) (hmark : d.mark = c.mark)
    (hclosed : ∀ item ∈ (c.block none).items, item.isEnd ∨ item.Closed) :
    ∃ before last, (c.block none).items = before ++ [last] ∧ last.isEnd ∧
      (∀ item ∈ before, item.isEnd = false) ∧
      (d.block none).items = before ++ ((d.beyond (c.ahead ++ ['\n']) second).block none).items := by
  induction c using stepInduction generalizing d with
  | atEnd c hend =>
    refine ⟨[], c.next.1, by rw [block_of_isEnd hend]; rfl, hend, by simp, ?_⟩
    have hread := Lexeme.read_append_newline_of_endOfFile (content_of_isEnd hend) second
    rw [← hahead] at hread
    rw [block_of_next_eq (next_of_behind hread), List.nil_append]
  | atStep c hend ih =>
    rw [block_none_of_not_isEnd hend] at hclosed
    have hitem : c.next.1.Closed :=
      (hclosed _ List.mem_cons_self).resolve_left (by rw [hend]; exact Bool.false_ne_true)
    obtain ⟨hnext, hnext_ahead, hnext_mark⟩ := next_append_newline hahead hmark hitem
    obtain ⟨before, last, hitems, hlast, hbefore, hall⟩ :=
      ih hnext_ahead hnext_mark fun item h => hclosed item (List.mem_cons_of_mem _ h)
    have hbeyond : d.next.2.beyond (c.next.2.ahead ++ ['\n']) second
        = d.beyond (c.ahead ++ ['\n']) second := by
      have hstep : c.next.2.mark = (c.mark.after c.passed).after c.covered := rfl
      have hsource : d.next.2.source = d.source := rfl
      rw [beyond, beyond, hsource, hnext_mark, hstep, hmark, ahead_eq c]
      simp only [Mark.after_append]
    refine ⟨c.next.1 :: before, last, ?_, hlast, ?_, ?_⟩
    · rw [block_none_of_not_isEnd hend]
      exact congrArg (c.next.1 :: ·) hitems
    · intro item h
      rcases List.mem_cons.1 h with rfl | h
      · exact hend
      · exact hbefore item h
    · rw [← hnext] at hend ⊢
      rw [block_none_of_not_isEnd hend, ← hbeyond]
      exact congrArg (d.next.1 :: ·) hall

/-- The same text ahead of a mark further down gives the same items further down. -/
theorem block_shift (bytes lines : Nat) (hahead : d.ahead = c.ahead)
    (hmark : d.mark = c.mark.shift bytes lines) :
    (d.block none).items = (c.block none).items.map (Item.shift bytes lines) := by
  have hnext : ∀ {c d : Cursor}, d.ahead = c.ahead → d.mark = c.mark.shift bytes lines →
      d.next.1 = c.next.1.shift bytes lines ∧ d.next.2.ahead = c.next.2.ahead ∧
        d.next.2.mark = c.next.2.mark.shift bytes lines := by
    intro c d hahead hmark
    simp only [next, hahead, hmark, Mark.after_shift, Lexeme.item_shift, and_self]
  induction c using stepInduction generalizing d with
  | atEnd c hend =>
    obtain ⟨hitem, -, -⟩ := hnext hahead hmark
    have hend' : d.next.1.isEnd := by rw [hitem, Item.isEnd_shift, hend]
    rw [block_of_isEnd hend, block_of_isEnd hend', hitem]
    rfl
  | atStep c hend ih =>
    obtain ⟨hitem, hnext_ahead, hnext_mark⟩ := hnext hahead hmark
    have hend' : d.next.1.isEnd = false := by rw [hitem, Item.isEnd_shift, hend]
    rw [block_none_of_not_isEnd hend, block_none_of_not_isEnd hend', hitem]
    exact congrArg (c.next.1.shift bytes lines :: ·) (ih hnext_ahead hnext_mark)

end Cursor

/-- The stream `whole` is `left` without its end, and then `right` some bytes and lines further
down. -/
def TokenStream.Joins (left right whole : TokenStream) (bytes lines : Nat) : Prop :=
  ∃ before last, left.tokens = before ++ [last] ∧ last.isEndOfFile ∧
    (∀ t ∈ before, t.isEndOfFile = false) ∧
    whole.tokens = before ++ right.tokens.map (Token.shift bytes lines) ∧
    whole.faults = left.faults ++ right.faults.map (Fault.shift bytes lines)

/-- What reading two texts with a newline between them gives is joined from what reading each gives. -/
theorem TokenStream.joins_append_newline {first : List Char}
    (hclosed : ∀ f ∈ ((Cursor.ofSource first).block none).stream.faults,
      f.cause ≠ .unterminatedString ∧ f.cause ≠ .unterminatedComment)
    (second : List Char) :
    ((Cursor.ofSource first).block none).stream.Joins ((Cursor.ofSource second).block none).stream
      ((Cursor.ofSource (first ++ '\n' :: second)).block none).stream
      (Text.size first + 1) (first.count '\n' + 1) := by
  let bytes := Text.size first + 1
  let lines := first.count '\n' + 1
  let c := Cursor.ofSource first
  let d := Cursor.ofSource (first ++ '\n' :: second)
  let e := Cursor.ofSource second
  have hitems : ∀ item ∈ (c.block none).items, item.isEnd ∨ item.Closed := by
    intro item hitem
    cases item with
    | token t => exact Bool.eq_false_or_eq_true t.isEndOfFile
    | fault f => exact .inr (hclosed f (Item.mem_filterMap_fault?.2 hitem))
  obtain ⟨before, last, hblock, hlast, hbefore, hwhole⟩ :=
    Cursor.block_append_newline (c := c) (d := d) rfl rfl hitems
  have hmark : (d.beyond (c.ahead ++ ['\n']) second).mark = e.mark.shift bytes lines :=
    Mark.origin_after_newline first
  have hshift := Cursor.block_shift bytes lines (c := e) (d := d.beyond (c.ahead ++ ['\n']) second)
    rfl hmark
  rw [hshift] at hwhole
  obtain ⟨t, rfl⟩ := Item.exists_token_of_isEnd hlast
  refine ⟨before.filterMap Item.token?, t, ?_, hlast, ?_, ?_, ?_⟩
  · show (c.block none).stream.tokens = _
    rw [Cursor.tokens_stream_none, Block.tokens, hblock, List.filterMap_append]
    rfl
  · intro u hu
    exact hbefore _ (Item.mem_filterMap_token?.1 hu)
  · rw [Cursor.tokens_stream_none, Cursor.tokens_stream_none, Block.tokens, Block.tokens, hwhole,
      List.filterMap_append, Item.filterMap_token?_shift]
  · show (d.block none).faults = (c.block none).faults ++ (e.block none).faults.map _
    rw [Block.faults, Block.faults, Block.faults, hwhole, hblock, List.filterMap_append,
      List.filterMap_append, Item.filterMap_fault?_shift]
    simp only [List.filterMap_cons, Item.fault?, List.filterMap_nil, List.append_nil]
    rfl

/-! ### Counting on -/

namespace Location

theorem fits_iff {l : Location} : l.fits ↔ l.line < bound ∧ l.column < bound := by
  rw [fits, Bool.and_eq_true, decide_eq_true_eq, decide_eq_true_eq]

theorem counts_cons {l : Location} {c : Char} {cs : List Char} :
    l.counts (c :: cs) ↔ (l.advance c).fits ∧ (l.advance c).counts cs := by
  rw [counts, trail, List.all_cons, Bool.and_eq_true]
  rfl

/-- Further down the lines are more to count, and the columns are the same. -/
theorem counts_shift {l : Location} {lines : Nat} {cs : List Char} (h : (l.shift lines).fits) :
    (l.shift lines).counts cs ↔ l.counts cs ∧ l.line + lines + cs.count '\n' < bound := by
  induction cs generalizing l with
  | nil =>
    obtain ⟨hline, -⟩ := fits_iff.1 h
    exact ⟨fun _ => ⟨rfl, hline⟩, fun _ => rfl⟩
  | cons c cs ih =>
    have hlines : (l.advance c).line + cs.count '\n' = l.line + (c :: cs).count '\n' := by
      have hafter := line_after l (c :: cs)
      rw [← hafter, ← line_after]
      rfl
    rw [counts_cons, counts_cons, advance_shift]
    -- Lines only grow, so the bound on the last of them serves at every step.
    constructor
    · rintro ⟨hfits, hcounts⟩
      obtain ⟨hcounts, hline⟩ := (ih hfits).1 hcounts
      obtain ⟨-, hcolumn⟩ := fits_iff.1 hfits
      refine ⟨⟨fits_iff.2 ⟨?_, hcolumn⟩, hcounts⟩, ?_⟩ <;> omega
    · rintro ⟨⟨hfits, hcounts⟩, hline⟩
      obtain ⟨-, hcolumn⟩ := fits_iff.1 hfits
      have hshift : ((l.advance c).shift lines).fits := by
        refine fits_iff.2 ⟨?_, hcolumn⟩
        show (l.advance c).line + lines < bound
        omega
      refine ⟨hshift, (ih hshift).2 ⟨hcounts, ?_⟩⟩
      omega

/-- Two texts with a newline between them can be counted if each can and their lines are not too many. -/
theorem counts_append_newline {first second : List Char} :
    origin.counts (first ++ '\n' :: second) ↔
      origin.counts first ∧ origin.counts second ∧
        first.count '\n' + second.count '\n' + 2 < bound := by
  have hafter : origin.after (first ++ ['\n']) = origin.shift (first.count '\n' + 1) := by
    have hmark := congrArg Mark.location (Mark.origin_after_newline first)
    rwa [Mark.location_after] at hmark
  have hstep : (origin.after first).advance '\n' = origin.shift (first.count '\n' + 1) := by
    rw [← hafter]
    exact (List.foldl_concat _ _ _ _).symm
  rw [counts_append, Bool.and_eq_true, counts_cons, hstep]
  refine and_congr_right fun _ => ?_
  have hline : (origin.shift (first.count '\n' + 1)).line = first.count '\n' + 2 :=
    Nat.add_comm _ _
  have horigin : origin.line = 1 := rfl
  constructor
  · rintro ⟨hfits, hcounts⟩
    obtain ⟨hcounts, hlines⟩ := (counts_shift hfits).1 hcounts
    refine ⟨hcounts, ?_⟩
    omega
  · rintro ⟨hcounts, hlines⟩
    have hfits : (origin.shift (first.count '\n' + 1)).fits :=
      fits_iff.2 ⟨by omega, (by decide : 1 < bound)⟩
    refine ⟨hfits, (counts_shift hfits).2 ⟨hcounts, ?_⟩⟩
    omega

end Location

/-- A batch pass without a limit answers for a source if it can count over all of it. -/
theorem Scanner.exists_tokenize_iff {source : List Char} {stream : TokenStream} :
    (∃ log, tokenize .batch source = some (.ok stream, log)) ↔
      Location.origin.counts source ∧ ((Cursor.ofSource source).block none).stream = stream := by
  rw [tokenize_batch]
  constructor
  · rintro ⟨log, h⟩
    obtain ⟨hcounts, heq⟩ := Location.checked_eq_some_iff.1 h
    exact ⟨hcounts, Except.ok.inj (Prod.mk.inj heq).1⟩
  · rintro ⟨hcounts, rfl⟩
    exact ⟨_, Location.checked_of_counts hcounts _⟩

/-- Two texts with a newline between them are scanned one after the other, unless a quote or a block
comment of the first never closes: the second is scanned as in a source of its own, further down by the
bytes and the lines of the first and the newline. The scanner breaks down only if it does for the second
text alone, or if the lines of both are too many to be counted. -/
theorem tokenize_append_newline {first : List Char} {left : TokenStream} {log : List Event}
    (hleft : Scanner.tokenize .batch first = some (.ok left, log))
    (hclosed : ∀ f ∈ left.faults, f.cause ≠ .unterminatedString ∧ f.cause ≠ .unterminatedComment)
    (second : List Char) :
    (∀ whole log, Scanner.tokenize .batch (first ++ '\n' :: second) = some (.ok whole, log) →
      ∃ right log, Scanner.tokenize .batch second = some (.ok right, log) ∧
        left.Joins right whole (Text.size first + 1) (first.count '\n' + 1)) ∧
    ((∃ whole log, Scanner.tokenize .batch (first ++ '\n' :: second) = some (.ok whole, log)) ↔
      (∃ right log, Scanner.tokenize .batch second = some (.ok right, log)) ∧
        first.count '\n' + second.count '\n' + 2 < Location.bound) := by
  obtain ⟨hfirst, rfl⟩ := Scanner.exists_tokenize_iff.1 ⟨log, hleft⟩
  constructor
  · intro whole log hwhole
    obtain ⟨hcounts, rfl⟩ := Scanner.exists_tokenize_iff.1 ⟨log, hwhole⟩
    obtain ⟨-, hsecond, -⟩ := Location.counts_append_newline.1 hcounts
    obtain ⟨log, hright⟩ := Scanner.exists_tokenize_iff.2 ⟨hsecond, rfl⟩
    exact ⟨_, log, hright, TokenStream.joins_append_newline hclosed second⟩
  · simp only [Scanner.exists_tokenize_iff, exists_and_left, exists_eq', and_true,
      Location.counts_append_newline, hfirst, true_and]

/-- A fault at the end of the first text stays the fault that it is, also in front of the newline, and
a quote that never closes may stand in the second. -/
theorem tokenize_append_newline_exponent :
    let first := ['a', '.', ' ', '1', 'e', '+']
    let second := ['é', ' ', '"']
    ∃ left right whole log log' log'',
      Scanner.tokenize .batch first = some (.ok left, log) ∧
      (∀ f ∈ left.faults, f.cause ≠ .unterminatedString ∧ f.cause ≠ .unterminatedComment) ∧
      Scanner.tokenize .batch second = some (.ok right, log') ∧
      Scanner.tokenize .batch (first ++ '\n' :: second) = some (.ok whole, log'') ∧
      left.faults.length = 1 ∧ left.Joins right whole 7 1 := by
  intro first second
  have hclosed : ∀ f ∈ ((Cursor.ofSource first).block none).stream.faults,
      f.cause ≠ .unterminatedString ∧ f.cause ≠ .unterminatedComment := by
    decide +kernel
  have hone : ((Cursor.ofSource first).block none).stream.faults.length = 1 := by
    decide +kernel
  obtain ⟨log, hleft⟩ := Scanner.exists_tokenize_iff.2 ⟨(by decide : Location.origin.counts first), rfl⟩
  obtain ⟨hjoins, hscanned⟩ := tokenize_append_newline hleft hclosed second
  obtain ⟨log', hright⟩ := Scanner.exists_tokenize_iff.2 ⟨(by decide : Location.origin.counts second), rfl⟩
  obtain ⟨whole, log'', hwhole⟩ := hscanned.2 ⟨⟨_, log', hright⟩, by decide⟩
  obtain ⟨right, log', hright, hjoins⟩ := hjoins whole log'' hwhole
  exact ⟨_, right, whole, log, log', log'', hleft, hclosed, hright, hwhole, hone, hjoins⟩

end SqlScan
