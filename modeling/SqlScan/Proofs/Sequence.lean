import SqlScan.Proofs.Blocks

/-!
# The sequence that a source is read as

Reading on from the start of a source without end gives one sequence of items, which comes to the
end of the source and stays there. A block read anywhere in it is a part of it, from where it begins to the
first item that stops it: the end of the source, or the fault that reaches the limit. What a pass
answers is told by that part alone.
-/

namespace SqlScan

/-- So many items of a sequence, from one of them on. -/
def window (items : Nat → Item) (first count : Nat) : List Item :=
  (List.range' first count).map items

theorem window_succ (items : Nat → Item) (first count : Nat) :
    window items first (count + 1) = items first :: window items (first + 1) count := rfl

theorem take_window (items : Nat → Item) (first : Nat) {count n : Nat} (h : n ≤ count) :
    (window items first count).take n = window items first n := by
  rw [window, ← List.map_take, List.take_range'_of_length_ge h]
  rfl

/-- The items hold the end of the source, or as many faults as are allowed. -/
def Stops (limit : Option Nat) (items : List Item) : Prop :=
  (∃ item ∈ items, item.isEnd) ∨ ∃ n ∈ limit, n ≤ (items.filterMap Item.fault?).length

/-- Reading from an item of the sequence on stops behind so many items and not before. -/
structure FirstStop (limit : Option Nat) (items : Nat → Item) (first count : Nat) : Prop where
  stops : Stops limit (window items first count)
  goes_on : ∀ n < count, ¬ Stops limit (window items first n)

/-! ### Blocks in the sequence -/

namespace Block.StopsAt

variable {b : Block} {spare : Option Nat} {before front : List Item} {last : Item}

theorem stops (h : b.StopsAt spare before last) : Stops (spare.map (· + 1)) b.items := by
  rw [h.items]
  rcases h.stop with ⟨-, hend⟩ | ⟨-, hspare, f, rfl⟩
  · exact .inl ⟨last, by simp, hend⟩
  · refine .inr ⟨_, by rw [hspare]; rfl, ?_⟩
    rw [List.filterMap_append, List.length_append]
    exact Nat.le_refl _

theorem not_stops (h : b.StopsAt spare before last) (hfront : front <+: before) :
    ¬ Stops (spare.map (· + 1)) front := by
  rintro (⟨item, hitem, hend⟩ | ⟨n, hn, hle⟩)
  · rw [h.goes_on item (hfront.subset hitem)] at hend
    cases hend
  · obtain ⟨m, hm, rfl⟩ := Option.map_eq_some_iff.1 hn
    have hfew := h.few m hm
    have hfaults := (hfront.sublist.filterMap Item.fault?).length_le
    omega

end Block.StopsAt

namespace Cursor

/-- The cursor behind so many items. -/
def skip (c : Cursor) : Nat → Cursor
  | 0 => c
  | n + 1 => (c.skip n).next.2

/-- The items that reading from here on gives, in turn and without end. -/
def item (c : Cursor) (n : Nat) : Item := (c.skip n).next.1

variable {c d : Cursor}

theorem consistent_skip (h : c.Consistent) (n : Nat) :
    (c.skip n).Consistent ∧ (c.skip n).source = c.source := by
  induction n with
  | zero => exact ⟨h, rfl⟩
  | succ n ih => exact ⟨ih.1.next, ih.2⟩

theorem Reads.eq_window {b : Cursor} {items : List Item} (h : Reads c items d) {i : Nat}
    (hc : c = b.skip i) : items = window b.item i items.length ∧ d = b.skip (i + items.length) := by
  induction h generalizing i with
  | stop => exact ⟨rfl, hc⟩
  | @step c d items h ih =>
    subst hc
    obtain ⟨hitems, hd⟩ := ih (i := i + 1) rfl
    rw [Nat.add_right_comm] at hd
    exact ⟨congrArg ((b.skip i).next.1 :: ·) hitems, hd⟩

/-- A block is a part of the sequence, up to the first item that stops it. -/
theorem firstStop_block (c : Cursor) (i : Nat) (spare : Option Nat) :
    ∃ count, FirstStop (spare.map (· + 1)) c.item i count ∧
      ((c.skip i).block spare).items = window c.item i count ∧
      ((c.skip i).block spare).cursor = c.skip (i + count) := by
  obtain ⟨before, last, h⟩ := exists_stopsAt spare (c.skip i)
  obtain ⟨hitems, hcursor⟩ := (reads_block spare (c.skip i)).eq_window rfl
  have hstops := h.stops
  rw [hitems] at hstops
  refine ⟨_, ⟨hstops, ?_⟩, hitems, hcursor⟩
  intro n hn
  rw [← take_window c.item i (Nat.le_of_lt hn), ← hitems, h.items]
  rw [h.items, List.length_append, List.length_singleton] at hn
  rw [List.take_append_of_le_length (Nat.le_of_lt_succ hn)]
  exact h.not_stops (List.take_prefix n before)

end Cursor

/-! ### What passes answer -/

/-- What a strict pass answers that has read these items. -/
def strictAnswerOf (items : List Item) : Except Fault (List Token) :=
  match items.getLast? with
  | some (.fault f) => .error f
  | _ => .ok (items.filterMap Item.token?)

/-- What a batch pass answers that has read these items: behind a fault that stopped it, it closes
its tokens itself. -/
def streamOf (source : List Char) (items : List Item) : TokenStream where
  tokens := items.filterMap Item.token? ++
    match items.getLast? with
    | some (.fault f) =>
      [.endOfFile ⟨f.span.stop, f.span.stop⟩ (Location.ofOffset source f.span.stop)]
    | _ => []
  faults := items.filterMap Item.fault?

namespace Block.StopsAt

variable {b : Block} {c : Cursor} {spare : Option Nat} {before : List Item} {last : Item}

theorem strictAnswer_eq (h : b.StopsAt (some 0) before last) :
    b.strictAnswer = strictAnswerOf b.items := by
  have hnone : before.filterMap Item.fault? = [] := List.length_eq_zero_iff.1 (by
    have hfew := h.few 0 rfl
    omega)
  have hlast : b.items.getLast? = some last := by rw [h.items, List.getLast?_concat]
  have hfaults : b.faults = last.fault?.toList := by
    rw [Block.faults, h.items, List.filterMap_append, hnone, List.nil_append]
    cases last <;> rfl
  rw [Block.strictAnswer, strictAnswerOf, hlast, hfaults]
  cases last <;> rfl

theorem stream_eq (hc : c.Consistent) (h : (c.block spare).StopsAt spare before last) :
    (c.block spare).stream = streamOf c.source (c.block spare).items := by
  have hlast : (c.block spare).items.getLast? = some last := by rw [h.items, List.getLast?_concat]
  have hreads := Cursor.reads_block spare c
  have hposition := h.position_cursor
  have hlocation := (hreads.consistent hc).location_mark
  rw [hreads.source_eq, hposition] at hlocation
  rw [Block.stream, streamOf, hlast]
  rcases h.stop with ⟨hfull, hend⟩ | ⟨hfull, -, f, rfl⟩
  · obtain ⟨t, rfl⟩ := Item.exists_token_of_isEnd hend
    rw [hfull]
    rfl
  · have hoffset : (c.block spare).cursor.mark.offset = f.span.stop := hposition
    rw [hfull, if_pos rfl, hlocation, Mark.spanTo, hoffset]
    rfl

end Block.StopsAt

end SqlScan
