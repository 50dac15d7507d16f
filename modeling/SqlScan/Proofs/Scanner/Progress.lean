import SqlScan.Proofs.Blocks
import SqlScan.Proofs.Scanner.Restarts

/-!
# Progress of a scanner

A call for the next token either comes to the end of the source, and then it stays there and answers
the same from then on, or it moves on by the characters that its token or fault covers. So there are no
more tokens and faults than characters, every pass comes to an end, and the token for the end of the
source closes its tokens.
-/

namespace SqlScan

open Cursor (Reads)

/-- The tokens end with the end of the source and have it nowhere else; without it there are no more
tokens and faults than the given number. -/
structure TokenStream.FitsIn (s : TokenStream) (count : Nat) : Prop where
  endsOnce : EndsOnce s.tokens
  length_le : s.body.length + s.faults.length ≤ count

theorem Item.length_filterMap (items : List Item) :
    (items.filterMap token?).length + (items.filterMap fault?).length = items.length := by
  induction items with
  | nil => rfl
  | cons item items ih =>
    cases item with
    | token t | fault f =>
      simp only [List.filterMap_cons, token?, fault?, List.length_cons]
      omega

namespace Cursor

variable {c d : Cursor} {items : List Item}

/-- Every item but the end takes at least a character. -/
theorem Reads.length_add_le (h : Reads c items d) (hitems : ∀ item ∈ items, item.isEnd = false) :
    items.length + d.ahead.length ≤ c.ahead.length := by
  induction h with
  | stop c => simp
  | @step c d items h ih =>
    have hshorter := length_ahead_next_lt (hitems _ List.mem_cons_self)
    have hle := ih fun item hitem => hitems item (List.mem_cons_of_mem _ hitem)
    rw [List.length_cons]
    omega

theorem fitsIn_stream_block (spare : Option Nat) (c : Cursor) :
    (c.block spare).stream.FitsIn c.ahead.length := by
  obtain ⟨before, last, h⟩ := exists_stopsAt spare c
  refine ⟨h.endsOnce, ?_⟩
  have hreads := reads_block spare c
  have hlength := Item.length_filterMap before
  have hfaults : (c.block spare).stream.faults
      = before.filterMap Item.fault? ++ [last].filterMap Item.fault? := by
    rw [← List.filterMap_append, ← h.items]
    rfl
  rw [h.body_stream, hfaults, List.length_append]
  rcases h.stop with ⟨-, hend⟩ | ⟨hfull, -, -⟩
  · obtain ⟨t, rfl⟩ := Item.exists_token_of_isEnd hend
    obtain ⟨d, hbefore, -, -⟩ := h.exists_step
    have hle := hbefore.length_add_le h.goes_on
    simp only [List.filterMap_cons, Item.fault?, List.filterMap_nil, List.length_nil]
    omega
  · obtain ⟨f, rfl⟩ := h.exists_fault hfull
    rw [h.items] at hreads
    have hle := hreads.length_add_le fun item hitem =>
      (List.mem_append.1 hitem).elim (h.goes_on item) fun hlast => by
        rw [List.mem_singleton.1 hlast]
        rfl
    rw [List.length_append, List.length_singleton] at hle
    simp only [List.filterMap_cons, Item.fault?, List.filterMap_nil, List.length_singleton]
    omega

theorem fitsIn_of_strict_answer {tokens : List Token} (h : c.strict.answer = .ok tokens) :
    (TokenStream.mk tokens []).FitsIn c.ahead.length := by
  obtain ⟨hfaults, rfl⟩ := strict_answer_eq_ok_iff.1 h
  have hfits := fitsIn_stream_block none c
  have hstream : (c.block none).stream = ⟨(c.block none).tokens, []⟩ := by
    rw [← tokens_stream_none, ← hfaults]
    rfl
  rwa [hstream] at hfits

/-- The end of the source comes again at once, without any text before it. -/
theorem next_next_of_isEnd (h : c.next.1.isEnd) : c.next.2.next = c.next := by
  have hcovered : c.covered = [] := (Lexeme.trivia_passed_of_token (content_of_isEnd h)).2
  have hahead := ahead_next_of_isEnd h
  have hbeyond : c.next.2 = c.beyond c.passed (c.covered ++ c.next.2.ahead) := by
    rw [hcovered, hahead]
    show Cursor.mk c.source ((c.mark.after c.passed).after c.covered) c.next.2.ahead = _
    rw [hcovered, hahead]
    rfl
  conv => lhs; rw [hbeyond]
  exact (next_beyond_passed (.inl h)).symm

end Cursor

namespace Scanner

variable {s : Scanner} {c d : Cursor}

/-- Behind an item of the text that was ahead, the scanner is at the end of the source and answers
the item for ever, or it is some characters further on. -/
def CameOn (seen ahead : List Char) (item : Item) (t : Scanner) : Prop :=
  (item.isEnd ∧ t.position = Text.size (seen ++ ahead) ∧ ∀ count, ∃ u,
    t.trace (List.replicate count .next) =
      some (List.replicate count ⟨.item item, [], Text.size (seen ++ ahead)⟩, u)) ∨
  (item.isEnd = false ∧ ∃ run rest, ahead = run ++ rest ∧ run ≠ [] ∧
    t.position = Text.size (seen ++ run))

/-- Where reading stays there is nothing to count, so calls for the next token go on for ever. -/
theorem StandsAt.trace_next_of_stays (hs : s.StandsAt d) (hstays : d.next.2 = d) (count : Nat) :
    ∃ t, s.trace (List.replicate count .next) =
      some (List.replicate count ⟨.item d.next.1, [], d.position⟩, t) := by
  induction count generalizing s with
  | zero => exact ⟨s, rfl⟩
  | succ count ih =>
    obtain ⟨run, t, hover, ht, -, hnext⟩ := hs.next
    rw [hstays] at hover ht
    obtain rfl := hover.unique (.refl d)
    have hperform : s.perform .next = some (.item d.next.1, [], t) := by
      rw [perform, hnext]
      rfl
    have hposition : t.position = d.position := congrArg Mark.offset ht.mark
    obtain ⟨u, htrace⟩ := ih ht
    refine ⟨u, ?_⟩
    rw [List.replicate_succ, trace_of_perform hperform, htrace, hposition]
    rfl

theorem StandsAt.cameOn {seen : List Char} (hs : s.StandsAt c)
    (hsource : c.source = seen ++ c.ahead) (hposition : c.position = Text.size seen) {item : Item}
    {t : Scanner} (hnext : s.next = some (item, t)) : t.CameOn seen c.ahead item := by
  obtain ⟨u, ht, heq⟩ := hs.next.of_eq_some hnext
  obtain ⟨rfl, rfl⟩ := Prod.mk.inj heq
  have hplace : t.position = c.next.2.position := congrArg Mark.offset ht.mark
  cases hend : c.next.1.isEnd with
  | true =>
    left
    have hstays := Cursor.next_next_of_isEnd hend
    have hsize : c.next.2.position = Text.size (seen ++ c.ahead) :=
      hsource ▸ hs.consistent.next.position_of_nil (Cursor.ahead_next_of_isEnd hend)
    refine ⟨hend, hplace.trans hsize, fun count => ?_⟩
    have htrace := ht.trace_next_of_stays (congrArg Prod.snd hstays) count
    rwa [hstays, hsize] at htrace
  | false =>
    right
    refine ⟨hend, c.passed ++ c.covered, c.next.2.ahead, c.ahead_eq, ?_, ?_⟩
    · exact List.append_ne_nil_of_right_ne_nil _ (Cursor.covered_ne_nil hend)
    · rw [hplace, Cursor.position_next, Cursor.start_next, hposition, Text.size_append,
        Text.size_append, Nat.add_assoc]

theorem StandsAt.fitsIn_strict (hs : s.StandsAt c) {tokens : List Token} {log : List Event}
    {t : Scanner} (h : s.strict = some (.ok tokens, log, t)) :
    (TokenStream.mk tokens []).FitsIn c.ahead.length := by
  obtain ⟨u, -, heq⟩ := hs.strict.of_eq_some h
  exact Cursor.fitsIn_of_strict_answer (Prod.mk.inj heq).1.symm

theorem StandsAt.fitsIn_batch (hs : s.StandsAt c) {stream : TokenStream} {log : List Event}
    {t : Scanner} (h : s.batch = some (stream, log, t)) : stream.FitsIn c.ahead.length := by
  obtain ⟨u, -, heq⟩ := hs.batch.of_eq_some h
  rw [(Prod.mk.inj heq).1]
  exact Cursor.fitsIn_stream_block _ c

theorem StandsAt.fitsIn_run (hs : s.StandsAt c) {stream : TokenStream} {log : List Event}
    {t : Scanner} (h : s.run = some (.ok stream, log, t)) : stream.FitsIn c.ahead.length := by
  obtain ⟨u, -, heq⟩ := hs.run.of_eq_some h
  have hanswer : (c.run s.settings).answer = .ok stream := (Prod.mk.inj heq).1.symm
  unfold Cursor.run at hanswer
  split at hanswer
  · cases hstrict : c.strict.answer with
    | error fault => simp [hstrict, Except.map] at hanswer
    | ok tokens =>
      simp only [hstrict, Except.map, Except.ok.injEq] at hanswer
      exact hanswer ▸ Cursor.fitsIn_of_strict_answer hstrict
  · exact Except.ok.inj hanswer ▸ Cursor.fitsIn_stream_block _ c

end Scanner

/-- Wherever steps have led a scanner, a call for the next token comes to the end of the source, where
it stays for ever, or takes at least a character; every pass answers no more tokens and faults than
there are characters left, and the end of the source closes its tokens. All of them come to an end,
unless lines or columns run out on the way. -/
theorem scanner_makes_progress {settings : Settings} {source : List Char} {s : Scanner}
    (hs : s.ReachedIn settings source) :
    ∃ seen ahead, source = seen ++ ahead ∧ s.position = Text.size seen ∧
      (∀ item t, s.next = some (item, t) → t.CameOn seen ahead item) ∧
      (∀ tokens log t, s.strict = some (.ok tokens, log, t) →
        (TokenStream.mk tokens []).FitsIn ahead.length) ∧
      (∀ stream log t, s.batch = some (stream, log, t) → stream.FitsIn ahead.length) ∧
      (∀ stream log t, s.run = some (.ok stream, log, t) → stream.FitsIn ahead.length) ∧
      (s.next.isSome ∧ s.strict.isSome ∧ s.batch.isSome ∧ s.run.isSome ∨
        (Location.origin.after seen).counts ahead = false) := by
  obtain ⟨x, hsx, -, rfl⟩ := hs.exists_follows
  have hstands := hsx.stands
  obtain ⟨seen, hsource, hmark⟩ := hstands.consistent
  have hposition : x.cursor.position = Text.size seen := by
    rw [Cursor.position, hmark, Mark.origin_after_offset]
  have hlocation : x.cursor.mark.location = Location.origin.after seen := by
    rw [hmark, Mark.location_after]
    rfl
  refine ⟨seen, x.cursor.ahead, hsource, hsx.position_eq.trans hposition, ?_, ?_, ?_, ?_, ?_⟩
  · intro item t hnext
    exact hstands.cameOn hsource hposition hnext
  · intro tokens log t h
    exact hstands.fitsIn_strict h
  · intro stream log t h
    exact hstands.fitsIn_batch h
  · intro stream log t h
    exact hstands.fitsIn_run h
  · cases hcounts : (Location.origin.after seen).counts x.cursor.ahead with
    | false => exact .inr rfl
    | true =>
      rw [← hlocation] at hcounts
      exact .inl ⟨hstands.next.isSome hcounts, hstands.strict.isSome hcounts,
        hstands.batch.isSome hcounts, hstands.run.isSome hcounts⟩

/-- In front of a name that breaks off, with a quote that takes the comment behind it along. -/
theorem scanner_makes_progress_quote :
    let source := "é a.\"b /* c".toList
    ∃ s : Scanner, s.ReachedIn .batch source ∧
      ∃ seen ahead, source = seen ++ ahead ∧ s.position = Text.size seen ∧
        (∃ item t, s.next = some (item, t) ∧ t.CameOn seen ahead item) ∧
        ∃ stream log t, s.batch = some (stream, log, t) ∧ stream.FitsIn ahead.length := by
  intro source
  have hcounts : Location.origin.counts source := by decide
  obtain ⟨s, -, htrace⟩ :=
    (Scanner.follows_ofSource .batch source).trace_eq_some hcounts [.next]
  have hs : s.ReachedIn .batch source := ⟨[.next], _, htrace⟩
  obtain ⟨seen, ahead, hsource, hposition, hnext, -, hbatch, -, hanswers⟩ :=
    scanner_makes_progress hs
  rw [hsource, Location.counts_append, Bool.and_eq_true] at hcounts
  obtain ⟨hnext_some, -, hbatch_some, -⟩ := hanswers.resolve_right (by rw [hcounts.2]; simp)
  obtain ⟨⟨item, t⟩, hitem⟩ := Option.isSome_iff_exists.1 hnext_some
  obtain ⟨⟨stream, log, u⟩, hstream⟩ := Option.isSome_iff_exists.1 hbatch_some
  exact ⟨s, hs, seen, ahead, hsource, hposition, ⟨item, t, hitem, hnext item t hitem⟩,
    stream, log, u, hstream, hbatch stream log u hstream⟩

end SqlScan
