import SqlScan.Proofs.Recovery
import SqlScan.Proofs.Respacing

/-!
# Reading on from a place on the way

What is read from a place on depends on the mark and the text ahead alone. So a block begins with
whatever reading leads to a place on the way and goes on with the block from there; and trivia that is
ahead can be skipped before reading without changing what is read.
-/

namespace SqlScan

/-- A token or a fault that the end of the source has no part in. -/
def Item.Closed : Item → Prop
  | .token t => t.isEndOfFile = false
  | .fault f => f.cause ≠ .unterminatedString ∧ f.cause ≠ .unterminatedComment

theorem Item.Closed.isEnd {item : Item} (h : item.Closed) : item.isEnd = false := by
  cases item with
  | token t => exact h
  | fault f => rfl

theorem Lexeme.closed_of_item {x : Lexeme} {start stop : Mark} (h : (x.item start stop).Closed) :
    x.content.Closed := by
  unfold item at h
  split at h
  · rename_i kind hcontent
    rw [hcontent]
    cases kind with
    | endOfFile => cases h
    | _ => trivial
  · rename_i cause hcontent
    rw [hcontent]
    cases cause with
    | unterminatedString => exact absurd rfl h.1
    | unterminatedComment => exact absurd rfl h.2
    | _ => trivial

namespace Cursor

variable {c d e : Cursor} {items : List Item} {tokens : List Token} {last : Token}

theorem closed_of_next (h : c.next.1.Closed) : (Lexeme.read c.ahead).content.Closed :=
  Lexeme.closed_of_item h

/-! ### Behind a gap -/

/-- The cursor behind some text that is ahead. -/
def beyond (c : Cursor) (passed rest : List Char) : Cursor := ⟨c.source, c.mark.after passed, rest⟩

theorem next_of_behind {gap text : List Char}
    (h : Lexeme.read c.ahead = (Lexeme.read text).behind gap) : c.next = (c.beyond gap text).next := by
  simp only [next, h, beyond, Lexeme.behind, Mark.after_append]
  rfl

theorem Consistent.beyond {gap rest : List Char} (h : c.Consistent) (hahead : c.ahead = gap ++ rest) :
    (c.beyond gap rest).Consistent := by
  obtain ⟨seen, hsource, hmark⟩ := h
  refine ⟨seen ++ gap, ?_, ?_⟩
  · show c.source = seen ++ gap ++ rest
    rw [hsource, hahead, List.append_assoc]
  · show c.mark.after gap = _
    rw [hmark, Mark.after_append]

theorem position_beyond (c : Cursor) (gap rest : List Char) :
    (c.beyond gap rest).position = c.position + Text.size gap :=
  Mark.offset_after c.mark gap

/-- Behind a gap an item has its place by the bytes before it, and reading goes on behind it. -/
theorem Consistent.next_behind {gap text : List Char} {x : Lexeme} (hc : c.Consistent)
    (hahead : c.ahead = gap ++ text) (hread : Lexeme.read c.ahead = x.behind gap)
    (hpassed : x.passed = []) :
    let start : Mark := ⟨c.position + Text.size gap, .ofOffset c.source (c.position + Text.size gap)⟩
    c.next = (x.item start (start.after x.covered), ⟨c.source, start.after x.covered, x.rest⟩) := by
  have hoffset := c.position_beyond gap text
  have hlocation := (hc.beyond hahead).location_mark
  rw [hoffset] at hlocation
  have hmark : c.mark.after gap = ⟨c.position + Text.size gap, _⟩ :=
    congrArg₂ Mark.mk hoffset hlocation
  rw [Cursor.next, hread, Lexeme.behind, hpassed, List.append_nil, hmark]
  rfl

/-- Reading from where a token or a fault begins gives the same as reading from in front of it. -/
theorem next_beyond_passed (h : c.next.1.isEnd ∨ c.next.1.Closed) :
    c.next = (c.beyond c.passed (c.covered ++ c.next.2.ahead)).next := by
  apply next_of_behind
  have hread : Lexeme.read (c.covered ++ c.next.2.ahead)
      = ⟨[], c.covered, c.next.2.ahead, (Lexeme.read c.ahead).content⟩ := by
    rcases h with hend | hclosed
    · have hcontent := content_of_isEnd hend
      have hcovered : c.covered = [] := (Lexeme.trivia_passed_of_token hcontent).2
      rw [hcovered, ahead_next_of_isEnd hend, hcontent]
      exact Lexeme.read_nil
    · exact (Lexeme.read_before (closed_of_next hclosed) (.refl _)).2
  rw [hread, Lexeme.behind, List.append_nil]
  rfl

theorem block_of_next_eq (h : c.next = d.next) (spare : Option Nat) :
    c.block spare = d.block spare := by
  conv => lhs; unfold block
  conv => rhs; unfold block
  simp only [h]

theorem Reads.of_next_eq (h : Reads c items e) (hnext : c.next = d.next) (hne : items ≠ []) :
    Reads d items e := by
  cases h with
  | stop => exact absurd rfl hne
  | step h =>
    rw [hnext] at h ⊢
    exact .step h

/-! ### Blocks along a reading -/

/-- A block goes on wherever reading leads before the end. -/
theorem Reads.block_none_eq (h : Reads c items d) (hitems : ∀ item ∈ items, item.isEnd = false) :
    (c.block none).items = items ++ (d.block none).items := by
  induction h with
  | stop => rfl
  | step h ih =>
    rw [block_none_of_not_isEnd (hitems _ List.mem_cons_self)]
    exact congrArg (_ :: ·) (ih fun item hitem => hitems item (List.mem_cons_of_mem _ hitem))

/-- A block without a limit ends with the end of the source and meets it nowhere else. -/
theorem items_block_none (c : Cursor) :
    ∃ before last, (c.block none).items = before ++ [last] ∧ last.isEnd ∧
      ∀ item ∈ before, item.isEnd = false := by
  induction c using stepInduction with
  | atEnd c hend =>
    rw [block_of_isEnd hend]
    exact ⟨[], c.next.1, rfl, hend, by simp⟩
  | atStep c hend ih =>
    obtain ⟨before, last, hitems, hlast, hbefore⟩ := ih
    rw [block_none_of_not_isEnd hend]
    refine ⟨c.next.1 :: before, last, congrArg (c.next.1 :: ·) hitems, hlast, ?_⟩
    intro item hitem
    rcases List.mem_cons.1 hitem with rfl | hitem
    · exact hend
    · exact hbefore item hitem

/-! ### Sources without faults -/

theorem isEnd_next_of_nil (h : c.ahead = []) : c.next.1.isEnd := by
  obtain ⟨t, ht, hcontent⟩ := next_of_nil (.inl rfl) h
  rw [ht, Item.isEnd, Token.isEndOfFile, (Prod.mk.inj hcontent).1]
  rfl

/-- Tokens that reading gives up to the end of the source are what a strict pass answers. -/
theorem Reads.strict_answer (h : Reads c (tokens.map .token) d)
    (htokens : ∀ t ∈ tokens, t.isEndOfFile = false) (hlast : d.next.1 = .token last)
    (hend : last.isEndOfFile) : c.strict.answer = .ok (tokens ++ [last]) := by
  have hlast_end : d.next.1.isEnd := by
    rw [hlast]
    exact hend
  have hitems : (c.block none).items = (tokens ++ [last]).map .token := by
    rw [h.block_none_eq, block_of_isEnd hlast_end, hlast, List.map_append]
    · rfl
    · intro item hitem
      obtain ⟨t, ht, rfl⟩ := List.mem_map.1 hitem
      exact htokens t ht
  refine strict_answer_eq_ok_iff.2 ⟨?_, ?_⟩
  · rw [Block.faults, hitems, List.filterMap_map, List.filterMap_eq_nil_iff]
    exact fun _ _ => rfl
  · rw [Block.tokens, hitems, List.filterMap_map]
    exact List.filterMap_some.symm

theorem Reads.answer_eq {source : List Char} (h : Reads (ofSource source) (tokens.map .token) d)
    (htokens : ∀ t ∈ tokens, t.isEndOfFile = false) (hd : d.ahead = []) :
    ∃ last, (tokenize .failFast source).answer = .ok ⟨tokens ++ [last], []⟩ ∧ last.isEndOfFile := by
  have hend := isEnd_next_of_nil hd
  obtain ⟨last, hlast⟩ := Item.exists_token_of_isEnd hend
  rw [hlast] at hend
  refine ⟨last, ?_, hend⟩
  show (ofSource source).strict.answer.map _ = _
  rw [h.strict_answer htokens hlast hend]
  rfl

/-- The tokens that a strict pass answers are read in turn up to the end of the source, and only the
last of them is the end. -/
theorem reads_of_strict_answer (h : c.strict.answer = .ok tokens) :
    c.strict.cursor.ahead = [] ∧ Reads c (tokens.map .token) c.strict.cursor ∧
      ∃ before last, tokens = before ++ [last] ∧ last.isEndOfFile ∧
        ∀ t ∈ before, t.isEndOfFile = false := by
  obtain ⟨hfaults, rfl⟩ := strict_answer_eq_ok_iff.1 h
  have hcursor : c.strict.cursor = (c.block none).cursor := by
    show (c.block (some 0)).cursor = _
    rw [block_some_of_length_le (by simp [hfaults])]
  rw [hcursor]
  refine ⟨ahead_block_none c, ?_, ?_⟩
  · rw [← Block.items_of_faults_eq_nil hfaults]
    exact reads_block none c
  · obtain ⟨before, last, hblock, hlast, hbefore⟩ := items_block_none c
    obtain ⟨t, rfl⟩ := Item.exists_token_of_isEnd hlast
    refine ⟨before.filterMap Item.token?, t, ?_, hlast, ?_⟩
    · rw [Block.tokens, hblock, List.filterMap_append]
      rfl
    · intro u hu
      exact hbefore _ (Item.mem_filterMap_token?.1 hu)

theorem reads_of_answer {source : List Char} {stream : TokenStream}
    (h : (tokenize .failFast source).answer = .ok stream) :
    ∃ before last d, stream.tokens = before ++ [last] ∧ last.isEndOfFile ∧
      (∀ t ∈ before, t.isEndOfFile = false) ∧
      Reads (ofSource source) (stream.tokens.map .token) d := by
  obtain ⟨hfaults, rfl⟩ := answer_failFast_eq_ok_iff.1 h
  have hanswer := strict_answer_eq_ok_iff.2 ⟨hfaults, rfl⟩
  obtain ⟨-, hreads, before, last, htokens, hlast, hbefore⟩ := reads_of_strict_answer hanswer
  exact ⟨before, last, _, htokens, hlast, hbefore, hreads⟩

end Cursor

end SqlScan
