import SqlScan.Cursor
import SqlScan.Proofs.Trivia

/-!
# Reading item after item

`Reads c items d` says that reading from `c` gives those items one after another and leads to `d`.
A block is such a reading, whatever it may pass over, so what one step keeps a whole block keeps.
A step splits the text ahead in what it passes over, what its item covers, and what is left; from
this one fact follow the places of all items and their order.

A block that may pass over some number of faults is the block that may pass over any, or the part of
it up to the first fault too many (`block_some`).
-/

namespace SqlScan

/-! ### Offsets of a split text -/

namespace Text

theorem size_pos_of_ne_nil {cs : List Char} (h : cs ≠ []) : 0 < size cs := by
  obtain ⟨d, ds, rfl⟩ := List.exists_cons_of_ne_nil h
  have hd := Char.utf8Size_pos d
  rw [size_cons]
  omega

theorem slice?_append (seen part behind : List Char) :
    slice? (size seen) (size (seen ++ part)) (seen ++ part ++ behind) = some part := by
  have hle : size seen ≤ size (seen ++ part) := by
    rw [size_append]
    omega
  have hpart : size (seen ++ part) - size seen = size part := by
    rw [size_append]
    omega
  simp only [slice?, if_pos hle, List.append_assoc, cut?_append, Option.bind_some, hpart,
    Option.map_some]

theorem begunBefore_append (seen behind : List Char) :
    begunBefore (size seen) (seen ++ behind) = seen := by
  induction seen with
  | nil =>
    rw [size_nil, begunBefore]
  | cons c cs ih =>
    have hpos := Char.utf8Size_pos c
    obtain ⟨n, hn⟩ : ∃ n, c.utf8Size + size cs = n + 1 := ⟨c.utf8Size + size cs - 1, by omega⟩
    have hrest : n + 1 - c.utf8Size = size cs := by omega
    rw [List.cons_append, size_cons, hn, begunBefore, hrest, ih]

theorem append_inj_of_size {as bs cs ds : List Char} (h : as ++ bs = cs ++ ds)
    (hsize : size as = size cs) : as = cs ∧ bs = ds := by
  have hcut := cut?_append as bs
  rw [hsize, h, cut?_append, Option.some.injEq, Prod.mk.injEq] at hcut
  exact ⟨hcut.1.symm, hcut.2.symm⟩

end Text

/-- From byte `start` to byte `stop` of a source there is only trivia. -/
def Gap.Between (source : List Char) (start stop : Nat) : Prop :=
  ∃ seen gap rest, source = seen ++ gap ++ rest ∧ Text.size seen = start ∧
    Text.size (seen ++ gap) = stop ∧ Trivia rest gap

/-! ### Items and their places -/

def Item.span : Item → Span
  | .token t => t.span
  | .fault f => f.span

def Item.location : Item → Location
  | .token t => t.location
  | .fault f => f.location

theorem Lexeme.span_item (x : Lexeme) (start stop : Mark) :
    (x.item start stop).span = start.spanTo stop := by
  unfold item
  split <;> rfl

theorem Lexeme.location_item (x : Lexeme) (start stop : Mark) :
    (x.item start stop).location = start.location := by
  unfold item
  split <;> rfl

theorem Mark.origin_after_offset (seen : List Char) :
    (Mark.origin.after seen).offset = Text.size seen := by
  rw [Mark.offset_after, Mark.origin, Nat.zero_add]

theorem Item.mem_filterMap_token? {items : List Item} {t : Token} :
    t ∈ items.filterMap Item.token? ↔ .token t ∈ items := by
  rw [List.mem_filterMap]
  constructor
  · intro ⟨item, hitem, ht⟩
    cases item with
    | token u =>
      rw [token?, Option.some.injEq] at ht
      exact ht ▸ hitem
    | fault f => simp [token?] at ht
  · intro h
    exact ⟨.token t, h, rfl⟩

theorem Item.mem_filterMap_fault? {items : List Item} {f : Fault} :
    f ∈ items.filterMap Item.fault? ↔ .fault f ∈ items := by
  rw [List.mem_filterMap]
  constructor
  · intro ⟨item, hitem, hf⟩
    cases item with
    | token t => simp [fault?] at hf
    | fault g =>
      rw [fault?, Option.some.injEq] at hf
      exact hf ▸ hitem
  · intro h
    exact ⟨.fault f, h, rfl⟩

theorem Item.exists_token_of_isEnd {item : Item} (h : item.isEnd) : ∃ t, item = .token t := by
  cases item with
  | token t => exact ⟨t, rfl⟩
  | fault f => simp [isEnd] at h

/-- Changing items in a way that changes the tokens, or the faults, among them in turn. -/
theorem Item.filterMap_map {β : Type} {p : Item → Option β} {f : Item → Item} {g : β → β}
    (h : ∀ item, p (f item) = (p item).map g) (items : List Item) :
    (items.map f).filterMap p = (items.filterMap p).map g := by
  rw [List.filterMap_map, List.map_filterMap]
  exact congrArg (List.filterMap · items) (funext h)

namespace Cursor

/-- The text ahead and some text before it are the source, and the mark is the one after that. -/
def Consistent (c : Cursor) : Prop :=
  ∃ seen, c.source = seen ++ c.ahead ∧ c.mark = Mark.origin.after seen

theorem consistent_ofSource (source : List Char) : (ofSource source).Consistent :=
  ⟨[], rfl, rfl⟩

theorem Consistent.exists_seen {c : Cursor} (h : c.Consistent) :
    ∃ seen, c.source = seen ++ c.ahead ∧ c.position = Text.size seen := by
  obtain ⟨seen, hsource, hmark⟩ := h
  refine ⟨seen, hsource, ?_⟩
  rw [position, hmark, Mark.origin_after_offset]

theorem Consistent.position_of_nil {c : Cursor} (h : c.Consistent) (hnil : c.ahead = []) :
    c.position = Text.size c.source := by
  obtain ⟨seen, hsource, hposition⟩ := h.exists_seen
  rw [hposition, hsource, hnil, List.append_nil]

def passed (c : Cursor) : List Char := (Lexeme.read c.ahead).passed

def covered (c : Cursor) : List Char := (Lexeme.read c.ahead).covered

/-! ### One step -/

theorem ahead_eq (c : Cursor) : c.ahead = c.passed ++ c.covered ++ c.next.2.ahead :=
  (Lexeme.source_read c.ahead).symm

theorem start_next (c : Cursor) : c.next.1.span.start = c.position + Text.size c.passed := by
  show ((Lexeme.read c.ahead).item _ _).span.start = _
  rw [Lexeme.span_item, Mark.spanTo, Mark.offset_after]
  rfl

theorem position_next (c : Cursor) :
    c.next.2.position = c.next.1.span.start + Text.size c.covered := by
  rw [start_next]
  show ((c.mark.after _).after _).offset = _
  rw [Mark.offset_after, Mark.offset_after]
  rfl

theorem stop_next (c : Cursor) : c.next.1.span.stop = c.next.2.position := by
  show ((Lexeme.read c.ahead).item _ _).span.stop = _
  rw [Lexeme.span_item]
  rfl

theorem content_of_next {c : Cursor} {t : Token} (h : c.next.1 = .token t) :
    (Lexeme.read c.ahead).content = .token t.kind ∧ t.text = t.kind.textOf c.covered := by
  change (Lexeme.read c.ahead).item _ _ = _ at h
  unfold Lexeme.item at h
  split at h
  · rename_i hcontent
    cases h
    exact ⟨hcontent, rfl⟩
  · cases h

theorem content_of_next_fault {c : Cursor} {f : Fault} (h : c.next.1 = .fault f) :
    (Lexeme.read c.ahead).content = .fault f.cause := by
  change (Lexeme.read c.ahead).item _ _ = _ at h
  unfold Lexeme.item at h
  split at h
  · cases h
  · rename_i hcontent
    cases h
    exact hcontent

theorem next_of_read {c : Cursor} {passed covered rest : List Char} {kind : TokenKind}
    (h : Lexeme.read c.ahead = ⟨passed, covered, rest, .token kind⟩) :
    ∃ span location, c.next.1 = .token ⟨kind.textOf covered, kind, span, location⟩ ∧
      c.next.2.ahead = rest := by
  refine ⟨(c.mark.after passed).spanTo ((c.mark.after passed).after covered),
    (c.mark.after passed).location, ?_, ?_⟩
  · simp only [next, h, Lexeme.item]
  · simp only [next, h]

theorem covered_ne_nil {c : Cursor} (h : c.next.1.isEnd = false) : c.covered ≠ [] := by
  apply Lexeme.covered_read_ne_nil
  intro hcontent
  simp [next, Lexeme.item, hcontent, Item.isEnd, Token.isEndOfFile] at h

theorem start_lt_stop_next {c : Cursor} (h : c.next.1.isEnd = false) :
    c.next.1.span.start < c.next.1.span.stop := by
  have hpos := Text.size_pos_of_ne_nil (covered_ne_nil h)
  rw [stop_next, position_next]
  omega

/-- What a step does to the source: it is split around what is passed over and what is covered. -/
theorem Consistent.split {c : Cursor} (h : c.Consistent) :
    ∃ seen, c.source = seen ++ c.passed ++ c.covered ++ c.next.2.ahead ∧
      c.position = Text.size seen ∧
      c.next.1.span.start = Text.size (seen ++ c.passed) ∧
      c.next.1.span.stop = Text.size (seen ++ c.passed ++ c.covered) ∧
      c.next.1.location = Location.origin.after (seen ++ c.passed) ∧
      c.next.2.mark = Mark.origin.after (seen ++ c.passed ++ c.covered) := by
  obtain ⟨seen, hsource, hmark⟩ := h
  have hposition : c.position = Text.size seen := by
    rw [position, hmark, Mark.origin_after_offset]
  refine ⟨seen, ?_, hposition, ?_, ?_, ?_, ?_⟩
  · rw [hsource, ahead_eq c]
    simp
  · rw [start_next, hposition, Text.size_append]
  · rw [stop_next, position_next, start_next, hposition, Text.size_append, Text.size_append]
  · show ((Lexeme.read c.ahead).item _ _).location = _
    rw [Lexeme.location_item, hmark, ← Mark.after_append, Mark.location_after]
    rfl
  · show (c.mark.after _).after _ = _
    rw [hmark, ← Mark.after_append, ← Mark.after_append, List.append_assoc]
    rfl

/-- What is passed over is trivia if and only if the source says so of the bytes before the item. -/
theorem Consistent.between_iff {c : Cursor} (h : c.Consistent) :
    Gap.Between c.source c.position c.next.1.span.start ↔
      Gap.Trivia (c.covered ++ c.next.2.ahead) c.passed := by
  obtain ⟨seen, hsource, hposition, hstart, -⟩ := h.split
  rw [hposition, hstart]
  constructor
  · intro ⟨seen', gap, rest, hsource', hseen, hgap, htrivia⟩
    rw [hsource, List.append_assoc] at hsource'
    obtain ⟨hboth, rfl⟩ := Text.append_inj_of_size hsource' hgap.symm
    obtain ⟨-, rfl⟩ := Text.append_inj_of_size hboth hseen.symm
    exact htrivia
  · intro htrivia
    exact ⟨seen, c.passed, c.covered ++ c.next.2.ahead, by rw [hsource, List.append_assoc], rfl,
      rfl, htrivia⟩

theorem Consistent.location_mark {c : Cursor} (h : c.Consistent) :
    c.mark.location = Location.ofOffset c.source c.position := by
  obtain ⟨seen, hsource, hmark⟩ := h
  rw [position, hsource, hmark, Mark.origin_after_offset, Location.ofOffset,
    Text.begunBefore_append, Mark.location_after]
  rfl

theorem Consistent.next {c : Cursor} (h : c.Consistent) : c.next.2.Consistent := by
  obtain ⟨seen, hsource, _, _, _, _, hmark⟩ := h.split
  exact ⟨seen ++ c.passed ++ c.covered, hsource, hmark⟩

theorem Consistent.seek {c d : Cursor} {offset : Nat} (h : c.seek? offset = some d) :
    d.Consistent ∧ d.source = c.source := by
  obtain ⟨⟨seen, ahead⟩, hcut, rfl⟩ := Option.map_eq_some_iff.1 h
  obtain ⟨happend, -⟩ := Text.append_of_cut? hcut
  exact ⟨⟨seen, happend.symm, rfl⟩, rfl⟩

/-! ### Blocks one item at a time -/

variable {spare : Option Nat} {c d : Cursor}

theorem block_of_isEnd (h : c.next.1.isEnd) : c.block spare = ⟨[c.next.1], false, c.next.2⟩ := by
  conv => lhs; unfold block
  simp [h]

theorem block_of_token {t : Token} (h : c.next.1 = .token t) (hend : t.isEndOfFile = false) :
    c.block spare = (c.next.2.block spare).cons (.token t) := by
  conv => lhs; unfold block
  simp [h, Item.isEnd, hend, Item.fault?]

theorem block_none_of_fault {f : Fault} (h : c.next.1 = .fault f) :
    c.block none = (c.next.2.block none).cons (.fault f) := by
  conv => lhs; unfold block
  simp [h, Item.isEnd, Item.fault?]

theorem block_zero_of_fault {f : Fault} (h : c.next.1 = .fault f) :
    c.block (some 0) = ⟨[.fault f], true, c.next.2⟩ := by
  conv => lhs; unfold block
  simp [h, Item.isEnd, Item.fault?]

theorem block_succ_of_fault {f : Fault} {n : Nat} (h : c.next.1 = .fault f) :
    c.block (some (n + 1)) = (c.next.2.block (some n)).cons (.fault f) := by
  conv => lhs; unfold block
  simp [h, Item.isEnd, Item.fault?]

theorem block_none_of_not_isEnd (h : c.next.1.isEnd = false) :
    c.block none = (c.next.2.block none).cons c.next.1 := by
  cases hitem : c.next.1 with
  | token t =>
    rw [hitem] at h
    exact block_of_token hitem h
  | fault f => exact block_none_of_fault hitem

/-- Reading comes to the end of the source from everywhere. -/
theorem stepInduction {motive : Cursor → Prop}
    (atEnd : ∀ c : Cursor, c.next.1.isEnd → motive c)
    (atStep : ∀ c : Cursor, c.next.1.isEnd = false → motive c.next.2 → motive c)
    (c : Cursor) : motive c := by
  by_cases hend : c.next.1.isEnd
  · exact atEnd c hend
  · rw [Bool.not_eq_true] at hend
    have hshorter := length_ahead_next_lt hend
    exact atStep c hend (stepInduction atEnd atStep c.next.2)
termination_by c.ahead.length

/-- The same with a case for each kind of item. -/
theorem readInduction {motive : Cursor → Prop}
    (atEnd : ∀ c : Cursor, c.next.1.isEnd → motive c)
    (atToken : ∀ (c : Cursor) (t : Token), c.next.1 = .token t → t.isEndOfFile = false →
      motive c.next.2 → motive c)
    (atFault : ∀ (c : Cursor) (f : Fault), c.next.1 = .fault f → motive c.next.2 → motive c)
    (c : Cursor) : motive c := by
  induction c using stepInduction with
  | atEnd c hend => exact atEnd c hend
  | atStep c hend ih =>
    cases hitem : c.next.1 with
    | token t =>
      rw [hitem] at hend
      exact atToken c t hitem hend ih
    | fault f => exact atFault c f hitem ih

/-! ### Readings -/

/-- Reading from a cursor gives some items in turn and leads to another cursor. -/
inductive Reads : Cursor → List Item → Cursor → Prop where
  | stop (c : Cursor) : Reads c [] c
  | step {c d : Cursor} {items : List Item} (h : Reads c.next.2 items d) :
      Reads c (c.next.1 :: items) d

theorem Reads.source_eq {items : List Item} (h : Reads c items d) : d.source = c.source := by
  induction h with
  | stop => rfl
  | step _ ih => exact ih

theorem Reads.consistent {items : List Item} (h : Reads c items d) (hc : c.Consistent) :
    d.Consistent := by
  induction h with
  | stop => exact hc
  | step _ ih => exact ih hc.next

/-- Each item of a reading is read somewhere on the way. -/
theorem Reads.exists_next {items : List Item} (h : Reads c items d) (hc : c.Consistent)
    {item : Item} (hitem : item ∈ items) :
    ∃ m : Cursor, m.Consistent ∧ m.source = c.source ∧ m.next.1 = item := by
  induction h with
  | stop => simp at hitem
  | @step c _ _ _ ih =>
    rcases List.mem_cons.1 hitem with rfl | hitem
    · exact ⟨c, hc, rfl, rfl⟩
    · exact ih hc.next hitem

theorem Reads.split {items more : List Item} {e : Cursor} (h : Reads c (items ++ more) e) :
    ∃ d, Reads c items d ∧ Reads d more e := by
  induction items generalizing c with
  | nil => exact ⟨c, .stop c, h⟩
  | cons item items ih =>
    cases h with
    | step h =>
      obtain ⟨d, hleft, hright⟩ := ih h
      exact ⟨d, .step hleft, hright⟩

/-- The spans of a reading lie in order between the places it leads from and to. -/
theorem Reads.bounds {items : List Item} (h : Reads c items d) :
    c.position ≤ d.position ∧ ∀ item ∈ items, c.position ≤ item.span.start ∧
      item.span.start ≤ item.span.stop ∧ item.span.stop ≤ d.position := by
  induction h with
  | stop c => exact ⟨Nat.le_refl _, by simp⟩
  | @step c d items _ ih =>
    obtain ⟨hle, hitems⟩ := ih
    have hstart := start_next c
    have hposition := position_next c
    have hstop := stop_next c
    refine ⟨by omega, ?_⟩
    intro item hitem
    rcases List.mem_cons.1 hitem with rfl | hitem
    · omega
    · have hbounds := hitems item hitem
      omega

theorem Reads.of_cons {item : Item} {items : List Item} (h : Reads c (item :: items) d) :
    c.next.1 = item ∧ Reads c.next.2 items d := by
  cases h with
  | step h => exact ⟨rfl, h⟩

theorem Reads.stop_last {items : List Item} {item : Item} (h : Reads c (items ++ [item]) d) :
    item.span.stop = d.position := by
  obtain ⟨m, -, hlast⟩ := h.split
  obtain ⟨rfl, hstop⟩ := hlast.of_cons
  cases hstop
  exact stop_next m

/-- A fault parts the tokens of a reading: those before it end where it begins or earlier, and all
others end after that. -/
theorem Reads.filter_tokens {before after : List Item} {f : Fault}
    (h : Reads c (before ++ .fault f :: after) d) :
    ((before ++ .fault f :: after).filterMap Item.token?).filter
      (fun t => t.span.stop ≤ f.span.start) = before.filterMap Item.token? := by
  obtain ⟨m, hbefore, hrest⟩ := h.split
  obtain ⟨hfault, hafter⟩ := hrest.of_cons
  have hstart := start_next m
  have hstop := stop_next m
  have hlt : m.next.1.span.start < m.next.1.span.stop := by
    apply start_lt_stop_next
    rw [hfault]
    rfl
  simp only [hfault, Item.span] at hstart hstop hlt
  rw [List.filterMap_append, List.filter_append]
  have hleft : (before.filterMap Item.token?).filter (fun t => t.span.stop ≤ f.span.start)
      = before.filterMap Item.token? := by
    rw [List.filter_eq_self]
    intro t ht
    have hbounds := hbefore.bounds.2 _ (Item.mem_filterMap_token?.1 ht)
    simp only [Item.span] at hbounds
    rw [decide_eq_true_eq]
    omega
  have hright : ((Item.fault f :: after).filterMap Item.token?).filter
      (fun t => t.span.stop ≤ f.span.start) = [] := by
    rw [List.filter_eq_nil_iff]
    intro t ht
    have hbounds := hafter.bounds.2 _ (Item.mem_filterMap_token?.1 ht)
    simp only [Item.span] at hbounds
    rw [decide_eq_true_eq]
    omega
  rw [hleft, hright, List.append_nil]

theorem reads_block (spare : Option Nat) (c : Cursor) :
    Reads c (c.block spare).items (c.block spare).cursor := by
  induction c using readInduction generalizing spare with
  | atEnd c hend =>
    rw [block_of_isEnd hend]
    exact .step (.stop _)
  | atToken c t htoken hend ih =>
    rw [block_of_token htoken hend, Block.cons, ← htoken]
    exact .step (ih spare)
  | atFault c f hfault ih =>
    match spare with
    | none =>
      rw [block_none_of_fault hfault, Block.cons, ← hfault]
      exact .step (ih none)
    | some 0 =>
      rw [block_zero_of_fault hfault, ← hfault]
      exact .step (.stop _)
    | some (n + 1) =>
      rw [block_succ_of_fault hfault, Block.cons, ← hfault]
      exact .step (ih (some n))

/-! ### Bounded blocks -/

theorem full_block_none (c : Cursor) : (c.block none).full = false := by
  induction c using stepInduction with
  | atEnd c hend => rw [block_of_isEnd hend]
  | atStep c hend ih =>
    rw [block_none_of_not_isEnd hend]
    exact ih

/-- A bounded block is the unbounded one, or it ends with the fault after as many others as it may
pass over, from where the unbounded one reads on. -/
theorem block_some (n : Nat) (c : Cursor) :
    (c.block (some n) = c.block none ∧ (c.block none).faults.length ≤ n) ∨
    ∃ before f after d, (c.block none).items = before ++ .fault f :: after ∧
      (before.filterMap Item.fault?).length = n ∧
      c.block (some n) = ⟨before ++ [.fault f], true, d⟩ ∧
      Reads d after (c.block none).cursor := by
  induction c using readInduction generalizing n with
  | atEnd c hend =>
    left
    rw [block_of_isEnd hend, block_of_isEnd hend]
    refine ⟨rfl, ?_⟩
    obtain ⟨t, ht⟩ := Item.exists_token_of_isEnd hend
    rw [Block.faults, ht]
    exact Nat.zero_le n
  | atToken c t htoken hend ih =>
    rw [block_of_token htoken hend, block_of_token htoken hend]
    rcases ih n with ⟨hblock, hle⟩ | ⟨before, f, after, d, hitems, hlength, hblock, hreads⟩
    · left
      rw [hblock]
      exact ⟨rfl, hle⟩
    · right
      refine ⟨.token t :: before, f, after, d, ?_, hlength, ?_, hreads⟩
      · rw [Block.cons, hitems, List.cons_append]
      · rw [hblock]
        rfl
  | atFault c f hfault ih =>
    rw [block_none_of_fault hfault]
    cases n with
    | zero =>
      right
      refine ⟨[], f, (c.next.2.block none).items, c.next.2, rfl, rfl, ?_, reads_block none c.next.2⟩
      rw [block_zero_of_fault hfault]
      rfl
    | succ n =>
      rw [block_succ_of_fault hfault]
      rcases ih n with ⟨hblock, hle⟩ | ⟨before, f', after, d, hitems, hlength, hblock, hreads⟩
      · left
        rw [hblock]
        exact ⟨rfl, Nat.succ_le_succ hle⟩
      · right
        refine ⟨.fault f :: before, f', after, d, ?_, congrArg (· + 1) hlength, ?_, hreads⟩
        · rw [Block.cons, hitems, List.cons_append]
        · rw [hblock]
          rfl

end Cursor

end SqlScan
