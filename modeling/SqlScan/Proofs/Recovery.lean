import SqlScan.Proofs.BrokenNames
import SqlScan.Proofs.Lossless
import SqlScan.Session

/-!
# What reading on after a fault loses

A fault covers all that was read since the trivia before it, and reading goes on right behind what it
covers; so a batch pass without a limit accounts for every byte: each is in a token, in a fault, or in
trivia between two of them. There is one exception. A dotted name that breaks off at a quote that
nothing closes is passed over in front of the fault, and its segments before the quote are neither
in a token nor in a fault. Those bytes are lost, and no others are.
-/

namespace SqlScan

open Cursor (Reads)
open Lexeme (BrokenName)

/-! ### Sessions -/

namespace Session

/-- The sessions that steps lead to from the start of a source. -/
inductive Reachable (settings : Settings) (source : List Char) : Session → Prop where
  | start : Reachable settings source (ofSource settings source)
  | step {s : Session} (h : Reachable settings source s) (step : Step) :
      Reachable settings source (s.perform step).2.2

theorem consistent_perform {s : Session} (h : s.cursor.Consistent) (step : Step) :
    (s.perform step).2.2.cursor.Consistent ∧
      (s.perform step).2.2.cursor.source = s.cursor.source := by
  have hblock : ∀ spare, (s.cursor.block spare).cursor.Consistent ∧
      (s.cursor.block spare).cursor.source = s.cursor.source := by
    intro spare
    have hreads := Cursor.reads_block spare s.cursor
    exact ⟨hreads.consistent h, hreads.source_eq⟩
  cases step with
  | next => exact ⟨h.next, rfl⟩
  | seek offset =>
    unfold perform
    dsimp only
    split
    · rename_i hseek
      exact Cursor.Consistent.seek hseek
    · exact ⟨h, rfl⟩
  | position => exact ⟨h, rfl⟩
  | settings => exact ⟨h, rfl⟩
  | strict => exact hblock (some 0)
  | batch => exact hblock _
  | run =>
    unfold perform Cursor.run
    dsimp only
    split
    · exact hblock (some 0)
    · exact hblock _

theorem Reachable.consistent {settings : Settings} {source : List Char} {s : Session}
    (h : Reachable settings source s) : s.cursor.Consistent ∧ s.cursor.source = source := by
  induction h with
  | start => exact ⟨Cursor.consistent_ofSource source, rfl⟩
  | step _ step ih =>
    obtain ⟨hconsistent, hsource⟩ := consistent_perform ih.1 step
    exact ⟨hconsistent, hsource.trans ih.2⟩

end Session

namespace Cursor

variable {c d : Cursor} {items : List Item}

theorem Consistent.between_iff_not_brokenName (h : c.Consistent) :
    Gap.Between c.source c.position c.next.1.span.start ↔
      ¬ ∃ gap name quoted, BrokenName gap name quoted c.ahead := by
  rw [h.between_iff]
  exact Lexeme.trivia_passed_iff c.ahead

/-! ### The whole of a reading -/

theorem content_of_isEnd (h : c.next.1.isEnd) :
    (Lexeme.read c.ahead).content = .token .endOfFile := by
  obtain ⟨t, ht⟩ := Item.exists_token_of_isEnd h
  rw [ht, Item.isEnd, Token.isEndOfFile, beq_iff_eq] at h
  rw [(content_of_next ht).1, h]

theorem ahead_next_of_isEnd (h : c.next.1.isEnd) : c.next.2.ahead = [] :=
  Lexeme.rest_of_endOfFile (content_of_isEnd h)

theorem ahead_block_none (c : Cursor) : (c.block none).cursor.ahead = [] := by
  induction c using stepInduction with
  | atEnd c hend =>
    rw [block_of_isEnd hend]
    exact ahead_next_of_isEnd hend
  | atStep c hend ih =>
    rw [block_none_of_not_isEnd hend]
    exact ih

theorem Reads.ahead_eq_nil (h : Reads c items d) (hc : c.ahead = []) : d.ahead = [] := by
  induction h with
  | stop => exact hc
  | @step c _ _ _ ih =>
    apply ih
    have hsplit := ahead_eq c
    rw [hc, eq_comm, List.append_eq_nil_iff] at hsplit
    exact hsplit.2

/-- A reading that comes to more text is the front of the unbounded block. -/
theorem Reads.block_none (h : Reads c items d) (hd : d.ahead ≠ []) :
    ∃ more, (c.block none).items = items ++ more ∧ Reads d more (c.block none).cursor := by
  induction h with
  | stop c => exact ⟨(c.block none).items, rfl, reads_block none c⟩
  | @step c d items h ih =>
    have hend : c.next.1.isEnd = false := by
      rw [Bool.eq_false_iff]
      intro hend
      exact hd (h.ahead_eq_nil (ahead_next_of_isEnd hend))
    obtain ⟨more, hitems, hmore⟩ := ih hd
    rw [block_none_of_not_isEnd hend]
    exact ⟨more, congrArg (c.next.1 :: ·) hitems, hmore⟩

theorem Reads.position_eq (h : Reads c items d) :
    d.position = c.position ∨ ∃ item ∈ items, item.span.stop = d.position := by
  rcases List.eq_nil_or_concat items with rfl | ⟨init, last, rfl⟩
  · left
    cases h
    rfl
  · right
    rw [List.concat_eq_append] at h ⊢
    exact ⟨last, by simp, h.stop_last⟩

theorem Reads.start_le (h : Reads c items d) {item : Item} (hitem : item ∈ items) :
    c.next.1.span.start ≤ item.span.start := by
  cases h with
  | stop => simp at hitem
  | step h =>
    rcases List.mem_cons.1 hitem with rfl | hitem
    · exact Nat.le_refl _
    · have hbounds := h.bounds.2 item hitem
      have hstop := stop_next c
      have hposition := position_next c
      omega

/-- Each byte that a reading goes over is gone over in one of its steps. -/
theorem Reads.exists_step (h : Reads c items d) {offset : Nat} (hfrom : c.position ≤ offset)
    (hto : offset < d.position) :
    ∃ before m after, items = before ++ m.next.1 :: after ∧ Reads c before m ∧
      Reads m.next.2 after d ∧ m.position ≤ offset ∧ offset < m.next.2.position := by
  induction h with
  | stop => omega
  | @step c d items h ih =>
    by_cases hstep : offset < c.next.2.position
    · exact ⟨[], c, items, rfl, .stop c, h, hfrom, hstep⟩
    · obtain ⟨before, m, after, rfl, hbefore, hafter, hm⟩ := ih (by omega) hto
      exact ⟨c.next.1 :: before, m, after, rfl, .step hbefore, hafter, hm⟩

end Cursor

/-! ### Bytes accounted for -/

def TokenStream.spans (stream : TokenStream) : List Span :=
  stream.tokens.map Token.span ++ stream.faults.map Fault.span

/-- A byte of what a pass from byte `origin` on reads is in a span, or in trivia that begins where
the pass or the place behind a span begins and that has no other span in it. -/
def TokenStream.Accounts (stream : TokenStream) (source : List Char) (origin offset : Nat) : Prop :=
  (∃ span ∈ stream.spans, span.start ≤ offset ∧ offset < span.stop) ∨
    ∃ start stop, start ≤ offset ∧ offset < stop ∧ Gap.Between source start stop ∧
      (start = origin ∨ ∃ span ∈ stream.spans, span.stop = start) ∧
      ∀ span ∈ stream.spans, span.stop ≤ start ∨ stop ≤ span.start

namespace Cursor

variable {c d m : Cursor} {items before after : List Item} {offset : Nat}

/-- The byte is in a name that breaks off, somewhere where reading on from here comes to. -/
def Loses (c : Cursor) (offset : Nat) : Prop :=
  ∃ items d gap name quoted, Reads c items d ∧ BrokenName gap name quoted d.ahead ∧
    d.position + Text.size gap ≤ offset ∧ offset < d.position + Text.size (gap ++ name)

theorem mem_spans_iff {span : Span} :
    span ∈ (c.block none).stream.spans ↔ ∃ item ∈ (c.block none).items, item.span = span := by
  rw [TokenStream.spans, tokens_stream_none, List.mem_append, List.mem_map, List.mem_map]
  constructor
  · intro h
    rcases h with ⟨t, ht, rfl⟩ | ⟨f, hf, rfl⟩
    · exact ⟨.token t, Item.mem_filterMap_token?.1 ht, rfl⟩
    · exact ⟨.fault f, Item.mem_filterMap_fault?.1 hf, rfl⟩
  · intro ⟨item, hitem, hspan⟩
    cases item with
    | token t => exact .inl ⟨t, Item.mem_filterMap_token?.2 hitem, hspan⟩
    | fault f => exact .inr ⟨f, Item.mem_filterMap_fault?.2 hitem, hspan⟩

/-- Trivia from where a step begins to where its item begins, or to before that, is in no span. -/
theorem accounts_of_between (hitems : (c.block none).items = before ++ m.next.1 :: after)
    (hbefore : Reads c before m) (hafter : Reads m.next.2 after d) {stop : Nat}
    (hstop : stop ≤ m.next.1.span.start) (hfrom : m.position ≤ offset) (hto : offset < stop)
    (hbetween : Gap.Between c.source m.position stop) :
    (c.block none).stream.Accounts c.source c.position offset := by
  right
  refine ⟨m.position, stop, hfrom, hto, hbetween, ?_, ?_⟩
  · rcases hbefore.position_eq with horigin | ⟨item, hitem, hitem_stop⟩
    · exact .inl horigin
    · right
      refine ⟨item.span, mem_spans_iff.2 ⟨item, ?_, rfl⟩, hitem_stop⟩
      rw [hitems]
      exact List.mem_append_left _ hitem
  · intro span hspan
    obtain ⟨item, hitem, rfl⟩ := mem_spans_iff.1 hspan
    rw [hitems, List.mem_append] at hitem
    rcases hitem with hitem | hitem
    · left
      exact (hbefore.bounds.2 item hitem).2.2
    · right
      exact Nat.le_trans hstop ((Reads.step hafter).start_le hitem)

theorem accounts_of_not_loses (hc : c.Consistent) (hfrom : c.position ≤ offset)
    (hto : offset < Text.size c.source) (hkeeps : ¬ c.Loses offset) :
    (c.block none).stream.Accounts c.source c.position offset := by
  have hreads := reads_block none c
  have hend : (c.block none).cursor.position = Text.size c.source := by
    obtain ⟨seen, hsource, hposition⟩ := (hreads.consistent hc).exists_seen
    rw [ahead_block_none, List.append_nil, hreads.source_eq] at hsource
    rw [hposition, hsource]
  obtain ⟨before, m, after, hitems, hbefore, hafter, hm_from, hm_to⟩ :=
    hreads.exists_step hfrom (hend ▸ hto)
  have hm := hbefore.consistent hc
  by_cases hcovered : m.next.1.span.start ≤ offset
  · left
    refine ⟨m.next.1.span, mem_spans_iff.2 ⟨m.next.1, ?_, rfl⟩, hcovered, ?_⟩
    · simp [hitems]
    · rw [stop_next]
      exact hm_to
  · rw [Nat.not_le] at hcovered
    by_cases hbroken : ∃ gap name quoted, BrokenName gap name quoted m.ahead
    · -- the trivia in front of the name is still accounted for
      obtain ⟨gap, name, quoted, hbroken⟩ := hbroken
      have hpassed : m.passed = gap ++ name := by rw [passed, hbroken.read]
      have hstart := start_next m
      rw [hpassed] at hstart
      have hgap : offset < m.position + Text.size gap := by
        by_contra hname
        exact hkeeps ⟨before, m, gap, name, quoted, hbefore, hbroken, by omega, by omega⟩
      apply accounts_of_between hitems hbefore hafter _ hm_from hgap
      · obtain ⟨seen, hsource, hposition⟩ := hm.exists_seen
        rw [hbefore.source_eq] at hsource
        refine ⟨seen, gap, name ++ quoted, ?_, hposition.symm, ?_, hbroken.trivia⟩
        · rw [hsource, hbroken.text_eq, List.append_assoc]
        · rw [Text.size_append, hposition]
      · rw [hstart, Text.size_append]
        omega
    · have hbetween := hm.between_iff_not_brokenName.2 hbroken
      rw [hbefore.source_eq] at hbetween
      exact accounts_of_between hitems hbefore hafter (Nat.le_refl _) hm_from hcovered hbetween

/-- Trivia that begins where a name that breaks off is read does not reach into the name. -/
theorem le_of_between {gap name quoted : List Char} (hd : d.Consistent)
    (hbroken : BrokenName gap name quoted d.ahead) {stop : Nat}
    (hbetween : Gap.Between d.source d.position stop) : stop ≤ d.position + Text.size gap := by
  obtain ⟨seen, hsource, hposition⟩ := hd.exists_seen
  obtain ⟨seen', trivia, rest, hsource', hseen, rfl, htrivia⟩ := hbetween
  rw [hsource, List.append_assoc] at hsource'
  obtain ⟨rfl, hahead⟩ := Text.append_inj_of_size hsource' (hposition.symm.trans hseen.symm)
  obtain ⟨more, rfl⟩ := hbroken.exists_append hahead htrivia
  rw [Text.size_append, Text.size_append]
  omega

theorem not_loses_of_accounts (hc : c.Consistent)
    (h : (c.block none).stream.Accounts c.source c.position offset) : ¬ c.Loses offset := by
  intro ⟨items, d, gap, name, quoted, hreads, hbroken, hfrom, hto⟩
  have hahead : d.ahead ≠ [] := by
    obtain ⟨_, _, _, -, -, -, rfl⟩ := hbroken.breaksOff
    simp [hbroken.text_eq]
  obtain ⟨more, hitems, hmore⟩ := hreads.block_none hahead
  have hstart : d.next.1.span.start = d.position + Text.size (gap ++ name) := by
    rw [start_next, passed, hbroken.read]
  -- every span ends before the trivia in front of the name or begins behind the name
  have hspans : ∀ span ∈ (c.block none).stream.spans, c.position ≤ span.start ∧
      span.start ≤ span.stop ∧ (span.stop ≤ d.position ∨ d.next.1.span.start ≤ span.start) := by
    intro span hspan
    obtain ⟨item, hitem, rfl⟩ := mem_spans_iff.1 hspan
    have hbounds := (reads_block none c).bounds.2 item hitem
    refine ⟨hbounds.1, hbounds.2.1, ?_⟩
    rw [hitems, List.mem_append] at hitem
    rcases hitem with hitem | hitem
    · exact .inl (hreads.bounds.2 item hitem).2.2
    · exact .inr (hmore.start_le hitem)
  rcases h with ⟨span, hspan, hle, hlt⟩ | ⟨start, stop, hle, hlt, hbetween, horigin, hclear⟩
  · have hsides := hspans span hspan
    omega
  · have hstart_le : c.position ≤ start ∧ start ≤ d.position := by
      rcases horigin with rfl | ⟨span, hspan, rfl⟩
      · exact ⟨Nat.le_refl _, hreads.bounds.1⟩
      · have hsides := hspans span hspan
        omega
    have hle_start : d.position ≤ start := by
      rcases hreads.position_eq with hposition | ⟨item, hitem, hposition⟩
      · omega
      · have hspan : item.span ∈ (c.block none).stream.spans := by
          refine mem_spans_iff.2 ⟨item, ?_, rfl⟩
          rw [hitems]
          exact List.mem_append_left more hitem
        have hsides := hspans item.span hspan
        rcases hclear item.span hspan with hbehind | hbefore
        · omega
        · omega
    have hplace : start = d.position := Nat.le_antisymm hstart_le.2 hle_start
    rw [hplace, ← hreads.source_eq] at hbetween
    have hstop := le_of_between (hreads.consistent hc) hbroken hbetween
    omega

theorem accounts_iff (hc : c.Consistent) (hfrom : c.position ≤ offset)
    (hto : offset < Text.size c.source) :
    (c.batch none).answer.Accounts c.source c.position offset ↔ ¬ c.Loses offset :=
  ⟨not_loses_of_accounts hc, accounts_of_not_loses hc hfrom hto⟩

end Cursor

/-! ### Recovery -/

/-- A session that reads a fault goes on behind it, and has passed over trivia only unless a name
broke off there. Of what a batch pass without a limit reads, exactly the bytes of such names are
neither in a token, nor in a fault, nor in trivia between them. -/
theorem recovery_loses_broken_names (settings : Settings) (source : List Char) :
    (∀ session, Session.Reachable settings source session → ∀ fault log after,
      session.perform .next = (.item (.fault fault), log, after) →
        after.position = fault.span.stop ∧
        (Gap.Between source session.position fault.span.start ↔
          ¬ ∃ gap name quoted, BrokenName gap name quoted session.cursor.ahead)) ∧
    (∀ session, Session.Reachable settings source session → ∀ offset,
      session.position ≤ offset → offset < Text.size source →
        ((session.cursor.batch none).answer.Accounts source session.position offset ↔
          ¬ session.cursor.Loses offset)) ∧
    ∃ stream, (tokenize .batch source).answer = .ok stream ∧
      ∀ offset < Text.size source,
        (stream.Accounts source 0 offset ↔ ¬ (Cursor.ofSource source).Loses offset) := by
  refine ⟨?_, ?_, ?_⟩
  · intro session hsession fault log after hnext
    obtain ⟨hconsistent, hsource⟩ := hsession.consistent
    have hitem : session.cursor.next.1 = .fault fault := by
      have hreply : Reply.item session.cursor.next.1 = .item (.fault fault) :=
        congrArg Prod.fst hnext
      exact Reply.item.inj hreply
    have hafter : session.moveTo session.cursor.next.2 = after :=
      congrArg (fun result => result.2.2) hnext
    have hbetween := hconsistent.between_iff_not_brokenName
    have hstop := Cursor.stop_next session.cursor
    rw [hitem, Item.span] at hbetween hstop
    rw [hsource] at hbetween
    refine ⟨?_, hbetween⟩
    rw [hstop, ← hafter]
    rfl
  · intro session hsession offset hfrom hto
    obtain ⟨hconsistent, hsource⟩ := hsession.consistent
    subst hsource
    exact Cursor.accounts_iff hconsistent hfrom hto
  · refine ⟨_, rfl, ?_⟩
    intro offset hto
    exact Cursor.accounts_iff (Cursor.consistent_ofSource source) (Nat.zero_le _) hto

/-- The name before the dot is lost. -/
example : (Cursor.ofSource ['a', '.', '"', 'b']).Loses 0 := by
  have hword : (Segment.bare ['a']).WellFormed :=
    ⟨⟨'a', [], rfl, by decide, by simp⟩, by decide⟩
  have hbroken : BrokenName [] ['a', '.'] ['"', 'b'] ['a', '.', '"', 'b'] :=
    ⟨rfl, .nil, .bare ['a'], [], ['b'], hword, by simp, rfl, rfl⟩
  exact ⟨[], _, [], ['a', '.'], ['"', 'b'], .stop _, hbroken, by decide, by decide⟩

end SqlScan
