import Mathlib.Data.List.Pairwise
import SqlScan.Proofs.Blocks
import SqlScan.Proofs.Faults

/-!
# The order of a stream

Reading goes on where the last item ended, so the items of a block lie in the source one behind the
other. A stream puts the tokens in one list and the faults in another; the order of the one list of
items is what orders each of the two and keeps them apart. A quote or a comment that nothing closes
takes the rest of the source with it, so behind such a fault there is only the end.
-/

namespace SqlScan

namespace Span

/-- One of the two ends before the other begins. -/
def Disjoint (s t : Span) : Prop := s.stop ≤ t.start ∨ t.stop ≤ s.start

/-- The first begins before the second, and ends before it too. -/
def Precedes (s t : Span) : Prop := s.start < t.start ∧ s.stop ≤ t.start

end Span

/-- Whether something is missing that would have closed a quote or a comment. -/
def Cause.isUnclosed : Cause → Bool
  | .unterminatedString | .unterminatedComment => true
  | _ => false

def Fault.isUnclosed (f : Fault) : Bool := f.cause.isUnclosed

namespace TokenStream

/-- What the tokens and the faults of a stream cover of the source, the end of it apart. -/
def parts (s : TokenStream) : List Span := s.body.map Token.span ++ s.faults.map Fault.span

/-- A stream in order: tokens and faults cover parts of the source that are not empty and have no byte
in common, each list follows the source, and the end stands behind all of them. There is one
unclosed fault at most, and it is the last thing before the end. -/
structure Ordered (source : List Char) (s : TokenStream) : Prop where
  covers : ∀ part ∈ s.parts, part.start < part.stop
  disjoint : s.parts.Pairwise Span.Disjoint
  tokens_in_order : (s.tokens.map Token.span).Pairwise Span.Precedes
  faults_in_order : (s.faults.map Fault.span).Pairwise Span.Precedes
  ends : ∃ last, s.tokens = s.body ++ [last] ∧ last.isEndOfFile ∧
    last.span.start = last.span.stop ∧ ∀ part ∈ s.parts, part.stop ≤ last.span.start
  unclosed_once : s.faults.countP Fault.isUnclosed ≤ 1
  unclosed_last : ∀ f ∈ s.faults, f.isUnclosed → s.faults.getLast? = some f ∧
    f.span.stop = Text.size source ∧ ∀ t ∈ s.body, t.span.stop ≤ f.span.start

end TokenStream

/-! ### What an unclosed fault leaves -/

/-- What nothing closes reaches up to the end. -/
theorem Cause.Explains.behind_eq_nil {cause : Cause} {part behind : List Char}
    (h : cause.Explains part behind) (hunclosed : cause.isUnclosed) : behind = [] := by
  cases h with
  | unexpectedCharacter | malformedNumber => cases hunclosed
  | unterminatedString | unterminatedComment => rfl

namespace Cursor

variable {c d : Cursor} {items : List Item} {f : Fault}

theorem ahead_next_of_unclosed (h : c.next.1 = .fault f) (hf : f.isUnclosed) :
    c.next.2.ahead = [] :=
  (explains_next h).behind_eq_nil hf

theorem Reads.all_isEnd (h : Reads c items d) (hc : c.ahead = []) : ∀ item ∈ items, item.isEnd := by
  induction h with
  | stop => simp
  | step _ ih =>
    have hend := isEnd_next_of_nil hc
    exact List.forall_mem_cons.2 ⟨hend, ih (ahead_next_of_isEnd hend)⟩

/-- An unclosed fault ends with the source, and behind it a reading gives the end only. -/
theorem Reads.exists_unclosed (h : Reads c items d) (hc : c.Consistent) (hf : .fault f ∈ items)
    (hunclosed : f.isUnclosed) :
    ∃ front after, items = front ++ .fault f :: after ∧ (∀ item ∈ after, item.isEnd) ∧
      f.span.stop = Text.size c.source := by
  obtain ⟨front, after, rfl⟩ := List.append_of_mem hf
  obtain ⟨m, hfront, hrest⟩ := h.split
  obtain ⟨hfault, hafter⟩ := hrest.of_cons
  have hnil := ahead_next_of_unclosed hfault hunclosed
  refine ⟨front, after, rfl, hafter.all_isEnd hnil, ?_⟩
  have hstop := stop_next m
  rw [hfault, (hfront.consistent hc).next.position_of_nil hnil] at hstop
  exact hstop.trans (congrArg Text.size hfront.source_eq)

theorem filterMap_fault?_of_isEnd (h : ∀ item ∈ items, item.isEnd) :
    items.filterMap Item.fault? = [] := by
  rw [List.filterMap_eq_nil_iff]
  intro item hitem
  obtain ⟨t, rfl⟩ := Item.exists_token_of_isEnd (h item hitem)
  rfl

theorem Reads.countP_unclosed_le_one (h : Reads c items d) :
    (items.filterMap Item.fault?).countP Fault.isUnclosed ≤ 1 := by
  induction h with
  | stop => exact Nat.zero_le 1
  | @step c d items h ih =>
    cases hitem : c.next.1 with
    | token t => exact ih
    | fault f =>
      show (f :: items.filterMap Item.fault?).countP Fault.isUnclosed ≤ 1
      by_cases hf : f.isUnclosed
      · have hends := h.all_isEnd (ahead_next_of_unclosed hitem hf)
        rw [filterMap_fault?_of_isEnd hends, List.countP_singleton, if_pos hf]
      · rw [List.countP_cons_of_neg hf]
        exact ih

/-! ### The order of a reading -/

theorem Reads.in_order (h : Reads c items d) :
    items.Pairwise fun a b => a.span.stop ≤ b.span.start := by
  induction h with
  | stop => exact .nil
  | @step c d items h ih =>
    refine List.pairwise_cons.2 ⟨fun item hitem => ?_, ih⟩
    rw [stop_next]
    exact (h.bounds.2 item hitem).1

theorem Reads.covers (h : Reads c items d) :
    ∀ item ∈ items, item.isEnd = false → item.span.start < item.span.stop := by
  induction h with
  | stop => simp
  | step _ ih => exact List.forall_mem_cons.2 ⟨start_lt_stop_next, ih⟩

theorem Reads.precedes (h : Reads c items d) :
    items.Pairwise fun a b => a.isEnd = false → a.span.Precedes b.span := by
  refine h.in_order.imp_of_mem fun {a b} ha _ hle hend => ?_
  have hlt := h.covers a ha hend
  exact ⟨by omega, hle⟩

theorem Reads.disjoint {t : Token} (h : Reads c items d) (ht : .token t ∈ items)
    (hf : .fault f ∈ items) : t.span.Disjoint f.span := by
  have hsymm : Std.Symm fun a b : Item => a.span.Disjoint b.span := ⟨fun _ _ => Or.symm⟩
  have hapart : items.Pairwise fun a b => a.span.Disjoint b.span := h.in_order.imp Or.inl
  exact hapart.forall ht hf (by simp)

end Cursor

/-! ### The order of a stream -/

namespace Block.StopsAt

variable {c : Cursor} {spare : Option Nat} {before : List Item} {last : Item}

theorem mem_items_of_mem_body {t : Token} (h : (c.block spare).StopsAt spare before last)
    (ht : t ∈ (c.block spare).stream.body) :
    .token t ∈ (c.block spare).items ∧ t.isEndOfFile = false := by
  rw [h.body_stream, Item.mem_filterMap_token?] at ht
  refine ⟨?_, h.goes_on _ ht⟩
  rw [h.items]
  exact List.mem_append_left [last] ht

theorem exists_item_of_mem_parts {part : Span} (h : (c.block spare).StopsAt spare before last)
    (hpart : part ∈ (c.block spare).stream.parts) :
    ∃ item ∈ (c.block spare).items, item.isEnd = false ∧ item.span = part := by
  rcases List.mem_append.1 hpart with hpart | hpart
  · obtain ⟨t, ht, rfl⟩ := List.mem_map.1 hpart
    obtain ⟨hitem, hend⟩ := h.mem_items_of_mem_body ht
    exact ⟨.token t, hitem, hend, rfl⟩
  · obtain ⟨f, hf, rfl⟩ := List.mem_map.1 hpart
    exact ⟨.fault f, Item.mem_filterMap_fault?.1 hf, rfl, rfl⟩

end Block.StopsAt

namespace Cursor

variable {c : Cursor}

theorem pairwise_faults (spare : Option Nat) (c : Cursor) :
    ((c.block spare).faults.map Fault.span).Pairwise Span.Precedes := by
  rw [List.pairwise_map]
  refine (reads_block spare c).precedes.filterMap Item.fault? ?_
  intro a b hprecedes f hf g hg
  cases a <;> cases hf
  cases b <;> cases hg
  exact hprecedes rfl

theorem pairwise_body (spare : Option Nat) (c : Cursor) :
    ((c.block spare).stream.body.map Token.span).Pairwise Span.Precedes := by
  obtain ⟨before, last, h⟩ := exists_stopsAt spare c
  have hprecedes := (reads_block spare c).precedes
  rw [h.items] at hprecedes
  have hbefore : before.Pairwise fun a b => a.span.Precedes b.span :=
    (List.pairwise_append.1 hprecedes).1.imp_of_mem fun ha _ h' => h' (h.goes_on _ ha)
  rw [h.body_stream, List.pairwise_map]
  refine hbefore.filterMap Item.token? ?_
  intro a b h t ht u hu
  cases a <;> cases ht
  cases b <;> cases hu
  exact h

theorem unclosed_last {f : Fault} (hc : c.Consistent) (spare : Option Nat)
    (hf : f ∈ (c.block spare).faults) (hunclosed : f.isUnclosed) :
    (c.block spare).faults.getLast? = some f ∧ f.span.stop = Text.size c.source ∧
      ∀ t ∈ (c.block spare).stream.body, t.span.stop ≤ f.span.start := by
  obtain ⟨before, last, h⟩ := exists_stopsAt spare c
  have hreads := reads_block spare c
  obtain ⟨front, after, hitems, hafter, hstop⟩ :=
    hreads.exists_unclosed hc (Item.mem_filterMap_fault?.1 hf) hunclosed
  have hfaults : (c.block spare).faults = front.filterMap Item.fault? ++ [f] := by
    rw [Block.faults, hitems, List.filterMap_append, ← filterMap_fault?_of_isEnd hafter]
    rfl
  refine ⟨by rw [hfaults, List.getLast?_concat], hstop, ?_⟩
  · intro t ht
    obtain ⟨hitem, hend⟩ := h.mem_items_of_mem_body ht
    have hin_order := hreads.in_order
    rw [hitems] at hitem hin_order
    rcases List.mem_append.1 hitem with hfront | hrest
    · exact (List.pairwise_append.1 hin_order).2.2 _ hfront _ List.mem_cons_self
    · -- only the end stands behind the fault, and a token of the body is not the end
      have hafter_mem : .token t ∈ after := (List.mem_cons.1 hrest).resolve_left (by simp)
      have hends := hafter _ hafter_mem
      rw [Item.isEnd, hend] at hends
      cases hends

/-- Wherever it begins and whatever its limit, the stream of a batch pass is in order. -/
theorem ordered_stream (hc : c.Consistent) (spare : Option Nat) :
    (c.block spare).stream.Ordered c.source := by
  obtain ⟨before, last, h⟩ := exists_stopsAt spare c
  obtain ⟨eof, htokens, hend, hspan⟩ := h.exists_tokens_stream
  rw [← h.body_stream] at htokens
  have hreads := reads_block spare c
  have hcovers : ∀ part ∈ (c.block spare).stream.parts,
      part.start < part.stop ∧ part.stop ≤ (c.block spare).cursor.position := by
    intro part hpart
    obtain ⟨item, hitem, hend, rfl⟩ := h.exists_item_of_mem_parts hpart
    exact ⟨hreads.covers item hitem hend, (hreads.bounds.2 item hitem).2.2⟩
  have hbody := pairwise_body spare c
  have hfaults := pairwise_faults spare c
  refine ⟨fun part hpart => (hcovers part hpart).1, ?_, ?_, hfaults, ⟨eof, htokens, hend, ?_, ?_⟩,
    hreads.countP_unclosed_le_one, fun f hf => unclosed_last hc spare hf⟩
  · refine List.pairwise_append.2 ⟨hbody.imp fun h => .inl h.2, hfaults.imp fun h => .inl h.2, ?_⟩
    simp only [List.forall_mem_map]
    intro t ht f hf
    exact hreads.disjoint (h.mem_items_of_mem_body ht).1 (Item.mem_filterMap_fault?.1 hf)
  · rw [htokens, List.map_append]
    refine List.pairwise_append.2 ⟨hbody, List.pairwise_singleton _ _, ?_⟩
    intro part hpart stop hstop
    obtain ⟨hlt, hle⟩ := hcovers part (List.mem_append_left _ hpart)
    rw [List.map_singleton, List.mem_singleton, hspan] at hstop
    subst hstop
    exact ⟨Nat.lt_of_lt_of_le hlt hle, hle⟩
  · rw [hspan]
  · intro part hpart
    rw [hspan]
    exact (hcovers part hpart).2

end Cursor

/-- A batch pass over any source, with a limit or without, answers a stream that is in order. -/
theorem batch_stream_ordered (source : List Char) (limit : Option FaultLimit) :
    ∃ stream, (tokenize ⟨.batch, limit⟩ source).answer = .ok stream ∧ stream.Ordered source :=
  ⟨_, rfl, Cursor.ordered_stream (Cursor.consistent_ofSource source) _⟩

/-- A fault between two tokens, and one with the rest of the source. -/
example :
    (tokenize .batch "a # b 'c".toList).answer.map
        (fun stream => (stream.tokens.map Token.span, stream.faults.map Fault.span))
      = .ok ([⟨0, 1⟩, ⟨4, 5⟩, ⟨8, 8⟩], [⟨2, 3⟩, ⟨6, 8⟩]) := by
  decide +kernel

end SqlScan
