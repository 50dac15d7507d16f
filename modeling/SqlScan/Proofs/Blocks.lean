import SqlScan.Proofs.Resumption

/-!
# How a block ends

Reading stops behind the end of the source, or behind the fault that it may not pass over, and at no
item before that. So the last item of a block says whether it is full, and with it how a strict pass
answers and whether a batch pass has to close its tokens itself: the tokens of a stream always end
with the end of the source, and have it nowhere else.
-/

namespace SqlScan

/-- The tokens of a stream that are not the end of the source. -/
def TokenStream.body (s : TokenStream) : List Token := s.tokens.filter fun t => !t.isEndOfFile

/-- The last of the tokens is the end of the source, and only the last. -/
def EndsOnce (tokens : List Token) : Prop :=
  ∃ before last, tokens = before ++ [last] ∧ last.isEndOfFile ∧ ∀ t ∈ before, t.isEndOfFile = false

/-- The block stops at its last item, and may go on behind every item before it. -/
structure Block.StopsAt (spare : Option Nat) (b : Block) (before : List Item) (last : Item) :
    Prop where
  items : b.items = before ++ [last]
  goes_on : ∀ item ∈ before, item.isEnd = false
  few : ∀ n ∈ spare, (before.filterMap Item.fault?).length ≤ n
  stop : (b.full = false ∧ last.isEnd) ∨
    b.full ∧ spare = some (before.filterMap Item.fault?).length ∧ ∃ f, last = .fault f

namespace Block.StopsAt

variable {b : Block} {spare : Option Nat} {before : List Item} {last : Item}

theorem cons_token {t : Token} (h : b.StopsAt spare before last) (ht : t.isEndOfFile = false) :
    (b.cons (.token t)).StopsAt spare (.token t :: before) last where
  items := congrArg (Item.token t :: ·) h.items
  goes_on := List.forall_mem_cons.2 ⟨ht, h.goes_on⟩
  few := h.few
  stop := h.stop

theorem cons_fault {f : Fault} (h : b.StopsAt spare before last) :
    (b.cons (.fault f)).StopsAt (spare.map (· + 1)) (.fault f :: before) last where
  items := congrArg (Item.fault f :: ·) h.items
  goes_on := List.forall_mem_cons.2 ⟨rfl, h.goes_on⟩
  few := by
    intro n hn
    obtain ⟨m, hm, rfl⟩ := Option.map_eq_some_iff.1 hn
    exact Nat.succ_le_succ (h.few m hm)
  stop := by
    rcases h.stop with hend | ⟨hfull, hspare, hfault⟩
    · exact .inl hend
    · exact .inr ⟨hfull, by rw [hspare]; rfl, hfault⟩

end Block.StopsAt

namespace Cursor

variable {c d : Cursor} {spare : Option Nat}

theorem exists_stopsAt (spare : Option Nat) (c : Cursor) :
    ∃ before last, (c.block spare).StopsAt spare before last := by
  induction c using readInduction generalizing spare with
  | atEnd c hend =>
    rw [block_of_isEnd hend]
    exact ⟨[], c.next.1, rfl, by simp, fun n _ => Nat.zero_le n, .inl ⟨rfl, hend⟩⟩
  | atToken c t htoken hend ih =>
    obtain ⟨before, last, h⟩ := ih spare
    rw [block_of_token htoken hend]
    exact ⟨_, last, h.cons_token hend⟩
  | atFault c f hfault ih =>
    match spare with
    | none =>
      obtain ⟨before, last, h⟩ := ih none
      rw [block_none_of_fault hfault]
      exact ⟨_, last, h.cons_fault⟩
    | some 0 =>
      rw [block_zero_of_fault hfault]
      exact ⟨[], .fault f, rfl, by simp, fun n _ => Nat.zero_le n, .inr ⟨rfl, rfl, f, rfl⟩⟩
    | some (n + 1) =>
      obtain ⟨before, last, h⟩ := ih (some n)
      rw [block_succ_of_fault hfault]
      exact ⟨_, last, h.cons_fault⟩

/-! ### What passes make of the last item -/

/-- The end of the source covers nothing. -/
theorem span_of_isEnd (h : c.next.1.isEnd) :
    c.next.1.span = ⟨c.next.2.position, c.next.2.position⟩ := by
  have hcovered : c.covered = [] := (Lexeme.trivia_passed_of_token (content_of_isEnd h)).2
  have hposition := position_next c
  have hstop := stop_next c
  rw [hcovered, Text.size_nil, Nat.add_zero] at hposition
  rw [hposition] at hstop ⊢
  exact congrArg (Span.mk _) hstop

theorem Reads.of_nil (h : Reads c [] d) : c = d := by
  cases h
  rfl

end Cursor

namespace Block.StopsAt

open Cursor (Reads)

variable {c : Cursor} {spare : Option Nat} {before : List Item} {last : Item}

theorem exists_step (h : (c.block spare).StopsAt spare before last) :
    ∃ d, Reads c before d ∧ d.next.1 = last ∧ d.next.2 = (c.block spare).cursor := by
  have hreads := Cursor.reads_block spare c
  rw [h.items] at hreads
  obtain ⟨d, hbefore, hlast⟩ := hreads.split
  obtain ⟨hitem, hstop⟩ := hlast.of_cons
  exact ⟨d, hbefore, hitem, hstop.of_nil⟩

theorem exists_fault (h : (c.block spare).StopsAt spare before last)
    (hfull : (c.block spare).full) : ∃ f, last = .fault f := by
  rcases h.stop with ⟨hopen, -⟩ | ⟨-, -, hfault⟩
  · rw [hfull] at hopen
    cases hopen
  · exact hfault

theorem position_cursor (h : (c.block spare).StopsAt spare before last) :
    (c.block spare).cursor.position = last.span.stop := by
  obtain ⟨d, -, rfl, hcursor⟩ := h.exists_step
  rw [← hcursor, Cursor.stop_next]

/-- The tokens of a stream are those before the last item, then the end where reading stopped. -/
theorem exists_tokens_stream (h : (c.block spare).StopsAt spare before last) :
    ∃ t, (c.block spare).stream.tokens = before.filterMap Item.token? ++ [t] ∧ t.isEndOfFile ∧
      t.span = ⟨(c.block spare).cursor.position, (c.block spare).cursor.position⟩ := by
  obtain ⟨d, -, hitem, hcursor⟩ := h.exists_step
  rw [Block.stream, Block.tokens, h.items, List.filterMap_append]
  rcases h.stop with ⟨hfull, hend⟩ | ⟨hfull, -, f, rfl⟩
  · obtain ⟨t, rfl⟩ := Item.exists_token_of_isEnd hend
    rw [← hitem] at hend
    have hspan := Cursor.span_of_isEnd hend
    rw [hitem, hcursor] at hspan
    rw [hitem] at hend
    refine ⟨t, ?_, hend, hspan⟩
    simp only [hfull, Bool.false_eq_true, if_false, List.append_nil]
    rfl
  · let mark := (c.block spare).cursor.mark
    refine ⟨.endOfFile (mark.spanTo mark) mark.location, ?_, rfl, rfl⟩
    simp only [hfull, if_true, List.filterMap_cons, Item.token?, List.filterMap_nil,
      List.append_nil, mark]

theorem body_stream (h : (c.block spare).StopsAt spare before last) :
    (c.block spare).stream.body = before.filterMap Item.token? := by
  obtain ⟨t, htokens, ht, -⟩ := h.exists_tokens_stream
  have hkept : (before.filterMap Item.token?).filter (fun t => !t.isEndOfFile)
      = before.filterMap Item.token? := by
    rw [List.filter_eq_self]
    intro u hu
    rw [show u.isEndOfFile = false from h.goes_on _ (Item.mem_filterMap_token?.1 hu)]
    rfl
  rw [TokenStream.body, htokens, List.filter_append, hkept, List.filter_cons, ht]
  exact List.append_nil _

theorem endsOnce (h : (c.block spare).StopsAt spare before last) :
    EndsOnce (c.block spare).stream.tokens := by
  obtain ⟨t, htokens, ht, -⟩ := h.exists_tokens_stream
  exact ⟨_, t, htokens, ht, fun u hu => h.goes_on _ (Item.mem_filterMap_token?.1 hu)⟩

/-- Behind a full block reading goes on to the block of all that is left. -/
theorem append {front : List Item} {final : Item} (h : (c.block spare).StopsAt spare before last)
    (hfull : (c.block spare).full)
    (hrest : ((c.block spare).cursor.block none).StopsAt none front final) :
    (c.block none).StopsAt none (before ++ last :: front) final := by
  obtain ⟨f, rfl⟩ := h.exists_fault hfull
  have hreads := Cursor.reads_block spare c
  rw [h.items] at hreads
  have hgoes_on : ∀ item ∈ before ++ [.fault f], item.isEnd = false := by
    intro item hitem
    rcases List.mem_append.1 hitem with hitem | hitem
    · exact h.goes_on item hitem
    · rw [List.mem_singleton.1 hitem]
      rfl
  refine ⟨?_, ?_, by simp, .inl ⟨Cursor.full_block_none c, ?_⟩⟩
  · rw [hreads.block_none_eq hgoes_on, hrest.items]
    simp
  · intro item hitem
    rw [List.append_cons, List.mem_append] at hitem
    exact hitem.elim (hgoes_on item) (hrest.goes_on item)
  · rcases hrest.stop with ⟨-, hend⟩ | ⟨-, hspare, -⟩
    · exact hend
    · cases hspare

end Block.StopsAt

namespace Cursor

variable {c : Cursor} {spare : Option Nat}

/-- Behind a full block there are the other faults and tokens. -/
theorem block_none_of_full (hfull : (c.block spare).full) :
    (c.block none).faults
        = (c.block spare).faults ++ ((c.block spare).cursor.block none).faults ∧
      (c.block none).stream.body
        = (c.block spare).stream.body ++ ((c.block spare).cursor.block none).stream.body := by
  obtain ⟨before, last, h⟩ := exists_stopsAt spare c
  obtain ⟨front, final, hrest⟩ := exists_stopsAt none (c.block spare).cursor
  have hwhole := h.append hfull hrest
  constructor
  · rw [Block.faults, Block.faults, Block.faults, hwhole.items, h.items, hrest.items,
      ← List.filterMap_append]
    simp
  · obtain ⟨f, rfl⟩ := h.exists_fault hfull
    rw [hwhole.body_stream, h.body_stream, hrest.body_stream, List.filterMap_append]
    rfl

theorem full_block_some {n : Nat} (h : n < (c.block none).faults.length) :
    (c.block (some n)).full ∧ (c.block (some n)).faults.length = n + 1 := by
  have hfaults := congrArg List.length (faults_block_some n c)
  rw [List.length_take, Nat.min_eq_left h] at hfaults
  refine ⟨?_, hfaults⟩
  rcases block_some n c with ⟨-, hle⟩ | ⟨before, f, after, d, -, -, hblock, -⟩
  · omega
  · rw [hblock]

end Cursor

end SqlScan
