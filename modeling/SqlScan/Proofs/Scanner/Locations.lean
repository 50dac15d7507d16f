import Mathlib.Order.Bounds.Defs
import SqlScan.Proofs.ByteSources
import SqlScan.Proofs.Places
import SqlScan.Proofs.Scanner.Positions

/-!
# Locations follow offsets

Counting goes over the characters that begin before an offset. So an offset that is no character
boundary has the location of the next boundary, or of the end of the source if there is none, and
what is left is to compare boundaries. A character leads to a later location, since a column falls
back only where a line is begun; of two boundaries one text is the front of the other, so their
locations compare as their offsets do. Whatever is read from a source begins at a boundary and has
its location.
-/

namespace SqlScan

/-! ### Characters and boundaries -/

namespace Text

/-- The characters of a text, each with the offset at which it begins. -/
def indexed (start : Nat) : List Char → List (Nat × Char)
  | [] => []
  | c :: cs => (start, c) :: indexed (start + c.utf8Size) cs

/-- The characters that begin before an offset. -/
def startedBefore (offset : Nat) (source : List Char) : List Char :=
  ((indexed 0 source).filter fun place => place.1 < offset).map Prod.snd

/-- The offset is between two characters of a text, or at one of its ends. -/
def IsBoundary (source : List Char) (place : Nat) : Prop :=
  ∃ before after, source = before ++ after ∧ size before = place

theorem start_le_of_mem_indexed {start : Nat} {cs : List Char} {place : Nat × Char}
    (h : place ∈ indexed start cs) : start ≤ place.1 := by
  induction cs generalizing start with
  | nil => cases h
  | cons c cs ih =>
    rcases List.mem_cons.1 h with rfl | h
    · exact Nat.le_refl start
    · exact Nat.le_trans (Nat.le_add_right start _) (ih h)

/-- Past the first character that begins too late no other begins in time. -/
theorem filter_indexed (start offset : Nat) (cs : List Char) :
    ((indexed start cs).filter fun place => place.1 < start + offset).map Prod.snd
      = begunBefore offset cs := by
  fun_induction begunBefore offset cs generalizing start with
  | case1 cs =>
    rw [List.map_eq_nil_iff, List.filter_eq_nil_iff]
    intro place hplace
    have hstart := start_le_of_mem_indexed hplace
    rw [decide_eq_true_eq]
    omega
  | case2 n => rfl
  | case3 n c cs ih =>
    have hfirst : start < start + n.succ := by omega
    rw [indexed, List.filter_cons, if_pos (decide_eq_true hfirst), List.map_cons,
      ← ih (start + c.utf8Size)]
    congr 2
    apply List.filter_congr
    intro place hplace
    have hstart := start_le_of_mem_indexed hplace
    rw [decide_eq_decide]
    omega

theorem startedBefore_eq (offset : Nat) (source : List Char) :
    startedBefore offset source = begunBefore offset source := by
  have hfilter := filter_indexed 0 offset source
  rw [Nat.zero_add] at hfilter
  exact hfilter

theorem begunBefore_prefix (offset : Nat) (source : List Char) :
    begunBefore offset source <+: source := by
  fun_induction begunBefore offset source with
  | case1 cs => exact List.nil_prefix
  | case2 n => exact List.nil_prefix
  | case3 n c cs ih => exact List.cons_prefix_cons.2 ⟨rfl, ih⟩

theorem le_size_begunBefore {offset : Nat} {source : List Char} (h : offset ≤ size source) :
    offset ≤ size (begunBefore offset source) := by
  fun_induction begunBefore offset source with
  | case1 cs => exact Nat.zero_le _
  | case2 n => exact h
  | case3 n c cs ih =>
    rw [size_cons] at h ⊢
    have hrest := ih (by omega)
    omega

theorem begunBefore_eq_self {offset : Nat} {source : List Char} (h : size source ≤ offset) :
    begunBefore offset source = source := by
  fun_induction begunBefore offset source with
  | case1 cs =>
    by_contra hne
    have hpos := size_pos_of_ne_nil (Ne.symm hne)
    omega
  | case2 n => rfl
  | case3 n c cs ih =>
    rw [size_cons] at h
    rw [ih (by omega)]

/-- Before a later offset no fewer characters begin. -/
theorem begunBefore_prefix_begunBefore {offset offset' : Nat} (source : List Char)
    (h : offset ≤ offset') : begunBefore offset source <+: begunBefore offset' source := by
  fun_induction begunBefore offset source generalizing offset' with
  | case1 cs => exact List.nil_prefix
  | case2 n => exact List.nil_prefix
  | case3 n c cs ih =>
    obtain ⟨m, rfl⟩ : ∃ m, offset' = m + 1 := ⟨offset' - 1, by omega⟩
    rw [begunBefore]
    exact List.cons_prefix_cons.2 ⟨rfl, ih (by omega)⟩

theorem isBoundary_size_begunBefore (offset : Nat) (source : List Char) :
    IsBoundary source (size (begunBefore offset source)) := by
  obtain ⟨after, happend⟩ := begunBefore_prefix offset source
  exact ⟨_, after, happend.symm, rfl⟩

theorem IsBoundary.exists_prefix {source : List Char} {place : Nat} (h : IsBoundary source place) :
    ∃ before, before <+: source ∧ size before = place ∧ begunBefore place source = before := by
  obtain ⟨before, after, rfl, rfl⟩ := h
  exact ⟨before, List.prefix_append before after, rfl, begunBefore_append before after⟩

theorem size_le_of_prefix {as bs : List Char} (h : as <+: bs) : size as ≤ size bs := by
  obtain ⟨more, rfl⟩ := h
  rw [size_append]
  exact Nat.le_add_right _ _

/-- The characters that begin before an offset end at the first boundary that is not before it. -/
theorem isLeast_size_begunBefore {offset : Nat} {source : List Char} (h : offset ≤ size source) :
    IsLeast {place | IsBoundary source place ∧ offset ≤ place}
      (size (begunBefore offset source)) := by
  constructor
  · exact ⟨isBoundary_size_begunBefore offset source, le_size_begunBefore h⟩
  · rintro place ⟨hplace, hle⟩
    obtain ⟨before, -, rfl, hbegun⟩ := hplace.exists_prefix
    have hprefix := begunBefore_prefix_begunBefore source hle
    rw [hbegun] at hprefix
    exact size_le_of_prefix hprefix

end Text

/-! ### Comparing locations -/

namespace Location

open Text (begunBefore IsBoundary)

instance : Std.TransCmp order :=
  inferInstanceAs (Std.TransCmp (compareLex (compareOn line) (compareOn column)))

theorem order_self (l : Location) : l.order l = .eq := Std.ReflCmp.compare_self

/-- A character leads to a later line, or further on in the same. -/
theorem order_advance (l : Location) (c : Char) : l.order (l.advance c) = .lt := by
  unfold advance
  split
  · have hline : compare l.line (l.line + 1) = .lt := Nat.compare_eq_lt.2 (Nat.lt_succ_self _)
    rw [order, hline]
    rfl
  · have hline : compare l.line l.line = .eq := Nat.compare_eq_eq.2 rfl
    have hcolumn : compare l.column (l.column + 1) = .lt :=
      Nat.compare_eq_lt.2 (Nat.lt_succ_self _)
    rw [order, hline, hcolumn]
    rfl

theorem order_after (l : Location) {cs : List Char} (h : cs ≠ []) : l.order (l.after cs) = .lt := by
  induction cs generalizing l with
  | nil => exact absurd rfl h
  | cons c cs ih =>
    have hstep := order_advance l c
    by_cases hcs : cs = []
    · rw [hcs]
      exact hstep
    · exact Std.TransCmp.lt_trans hstep (ih (l.advance c) hcs)

theorem order_after_of_prefix {as bs : List Char} (h : as <+: bs) :
    (origin.after as).order (origin.after bs) = compare (Text.size as) (Text.size bs) := by
  obtain ⟨more, rfl⟩ := h
  have happend : origin.after (as ++ more) = (origin.after as).after more := List.foldl_append
  rw [happend, Text.size_append]
  by_cases hmore : more = []
  · rw [hmore, Text.size_nil, Nat.add_zero, Nat.compare_eq_eq.2 rfl]
    exact order_self _
  · have hpos := Text.size_pos_of_ne_nil hmore
    rw [order_after _ hmore, Nat.compare_eq_lt.2 (by omega)]

/-- Of two fronts of a text the longer one leads to the later location. -/
theorem order_after_of_prefixes {as bs source : List Char} (has : as <+: source)
    (hbs : bs <+: source) :
    (origin.after as).order (origin.after bs) = compare (Text.size as) (Text.size bs) := by
  rcases List.prefix_or_prefix_of_prefix has hbs with hprefix | hprefix
  · exact order_after_of_prefix hprefix
  · have hswap : (origin.after as).order (origin.after bs)
        = ((origin.after bs).order (origin.after as)).swap := Std.OrientedCmp.eq_swap
    rw [hswap, order_after_of_prefix hprefix]
    exact Nat.compare_swap _ _

/-! ### Locations of offsets -/

theorem ofOffset_eq_of_begunBefore (source : List Char) (offset : Nat) :
    ofOffset source offset = ⟨1 + (begunBefore offset source).count '\n',
      1 + ((begunBefore offset source).rtakeWhile (· != '\n')).length⟩ := by
  rw [← column_origin_after]
  exact congrArg (Location.mk · _) (line_after origin (begunBefore offset source))

theorem ofOffset_size_begunBefore (source : List Char) (offset : Nat) :
    ofOffset source (Text.size (begunBefore offset source)) = ofOffset source offset := by
  obtain ⟨after, happend⟩ := Text.begunBefore_prefix offset source
  have hbegun := Text.begunBefore_append (begunBefore offset source) after
  rw [happend] at hbegun
  rw [ofOffset, ofOffset, hbegun]

theorem ofOffset?_eq (source : List Char) (offset : Nat) :
    ofOffset? source offset =
      if origin.counts (begunBefore offset source) then some (ofOffset source offset) else none :=
  foldlM_advance? origin (begunBefore offset source)

theorem isLE_order_ofOffset (source : List Char) {offset offset' : Nat} (h : offset ≤ offset') :
    ((ofOffset source offset).order (ofOffset source offset')).isLE := by
  have hprefix := Text.begunBefore_prefix_begunBefore source h
  rw [ofOffset, ofOffset, order_after_of_prefix hprefix, Nat.isLE_compare]
  exact Text.size_le_of_prefix hprefix

theorem order_ofOffset {source : List Char} {place place' : Nat} (h : IsBoundary source place)
    (h' : IsBoundary source place') :
    (ofOffset source place).order (ofOffset source place') = compare place place' := by
  obtain ⟨before, hbefore, rfl, hbegun⟩ := h.exists_prefix
  obtain ⟨before', hbefore', rfl, hbegun'⟩ := h'.exists_prefix
  rw [ofOffset, ofOffset, hbegun, hbegun', order_after_of_prefixes hbefore hbefore']

end Location

/-! ### What is read from a source -/

namespace Item

variable {source seen behind : List Char} {item a b : Item}

/-- The item begins at a boundary of the source, and has its location. -/
structure BeginsIn (source : List Char) (item : Item) : Prop where
  boundary : Text.IsBoundary source item.span.start
  location : item.location = Location.ofOffset source item.span.start

/-- The locations of two items compare as the starts of their spans do. -/
def ComparesAlike (a b : Item) : Prop :=
  a.location.order b.location = compare a.span.start b.span.start

theorem beginsIn_of_append (hstart : item.span.start = Text.size seen)
    (hlocation : item.location = Location.origin.after seen) : item.BeginsIn (seen ++ behind) where
  boundary := ⟨seen, behind, rfl, hstart.symm⟩
  location := by rw [hlocation, hstart, Location.ofOffset, Text.begunBefore_append]

theorem BeginsIn.comparesAlike (ha : a.BeginsIn source) (hb : b.BeginsIn source) :
    a.ComparesAlike b := by
  rw [ComparesAlike, ha.location, hb.location]
  exact Location.order_ofOffset ha.boundary hb.boundary

theorem ReadIn.beginsIn (h : item.ReadIn source) : item.BeginsIn source := by
  obtain ⟨c, hc, rfl, rfl | rfl⟩ := h
  · obtain ⟨seen, hparts, -, hstart, -, hlocation, -⟩ := hc.split
    rw [hparts, List.append_assoc]
    exact beginsIn_of_append hstart hlocation
  · obtain ⟨seen, hparts, hmark⟩ := hc
    rw [hparts]
    apply beginsIn_of_append
    · exact (congrArg Mark.offset hmark).trans (Mark.origin_after_offset seen)
    · exact (congrArg Mark.location hmark).trans (Mark.location_after Mark.origin seen)

end Item

theorem Session.beginsIn_trace (settings : Settings) (source : List Char) (steps : List Step) :
    ∀ outcome ∈ ((ofSource settings source).trace steps).1, ∀ item ∈ outcome.reply.items,
      item.BeginsIn source := by
  intro outcome houtcome item hitem
  have hstart : (ofSource settings source).cursor.Consistent := Cursor.consistent_ofSource source
  exact (readIn_trace hstart steps outcome houtcome item hitem).beginsIn

/-- What a stream lists of some bytes begins in the text that they are, or in the text before the
bytes that are no text. -/
theorem exists_beginsIn_tokenizeBytes {settings : Settings} {bytes : List UInt8}
    {stream : TokenStream} (h : (tokenizeBytes settings bytes).1 = .ok stream) :
    ∃ source, ∀ item ∈ (Reply.stream (.ok stream)).items, item.BeginsIn source := by
  cases hdecode : Text.Utf8.decode bytes with
  | ok source =>
    refine ⟨source, ?_⟩
    rw [tokenizeBytes, hdecode] at h
    rw [← h]
    exact Session.beginsIn_trace settings source [.run] _ List.mem_cons_self
  | error i =>
    refine ⟨i.before, ?_⟩
    rw [tokenizeBytes_of_decode_eq_error hdecode, rejection] at h
    dsimp only at h
    split at h
    · cases h
    · obtain rfl := Except.ok.inj h
      have hend : Item.BeginsIn ([] ++ i.before) (.token ⟨"", .endOfFile, ⟨0, 0⟩, ⟨1, 1⟩⟩) :=
        Item.beginsIn_of_append rfl rfl
      have hfault : Item.BeginsIn (i.before ++ []) (.fault (.ofIllFormed i)) :=
        Item.beginsIn_of_append (Mark.origin_after_offset i.before)
          (Mark.location_after Mark.origin i.before)
      rw [List.append_nil] at hfault
      exact List.forall_mem_cons.2 ⟨hend, List.forall_mem_singleton.2 hfault⟩

/-- The location of an offset counts the newlines, and the characters behind the last of them, among
the characters that begin before the offset. So it is the location of the next boundary, or of the
end of the source; a later offset has no earlier location, and boundaries compare as their locations
do. The same holds of any two tokens or faults that a session or a scanner answered for the source,
and of those in the stream of some bytes. -/
theorem locations_follow_offsets (settings : Settings) (source : List Char) :
    (∀ offset,
      Location.ofOffset source offset = ⟨1 + (Text.startedBefore offset source).count '\n',
        1 + ((Text.startedBefore offset source).rtakeWhile (· != '\n')).length⟩ ∧
      Location.ofOffset? source offset =
        (if Location.origin.counts (Text.startedBefore offset source) then
          some (Location.ofOffset source offset) else none) ∧
      (offset ≤ Text.size source → ∃ place,
        IsLeast {place | Text.IsBoundary source place ∧ offset ≤ place} place ∧
        Location.ofOffset source offset = Location.ofOffset source place) ∧
      (Text.size source ≤ offset →
        Location.ofOffset source offset = Location.ofOffset source (Text.size source))) ∧
    (∀ offset offset', offset ≤ offset' →
      ((Location.ofOffset source offset).order (Location.ofOffset source offset')).isLE) ∧
    (∀ place place', Text.IsBoundary source place → Text.IsBoundary source place' →
      (Location.ofOffset source place).order (Location.ofOffset source place')
          = compare place place' ∧
        (Location.ofOffset source place = Location.ofOffset source place' → place = place')) ∧
    (∀ steps, ∀ x ∈ ((Session.ofSource settings source).trace steps).1,
      ∀ y ∈ ((Session.ofSource settings source).trace steps).1,
        ∀ a ∈ x.reply.items, ∀ b ∈ y.reply.items, a.ComparesAlike b) ∧
    (∀ steps outcomes s, (Scanner.ofSource settings source).trace steps = some (outcomes, s) →
      ∀ x ∈ outcomes, ∀ y ∈ outcomes,
        ∀ a ∈ x.reply.items, ∀ b ∈ y.reply.items, a.ComparesAlike b) ∧
    ∀ bytes stream, (tokenizeBytes settings bytes).1 = .ok stream →
      ∀ a ∈ (Reply.stream (.ok stream)).items, ∀ b ∈ (Reply.stream (.ok stream)).items,
        a.ComparesAlike b := by
  have hsession := Session.beginsIn_trace settings source
  refine ⟨?offsets, ?monotone, ?boundaries, ?session, ?scanner, ?bytes⟩
  case offsets =>
    intro offset
    rw [Text.startedBefore_eq]
    refine ⟨Location.ofOffset_eq_of_begunBefore source offset, Location.ofOffset?_eq source offset,
      ?_, ?_⟩
    · intro hle
      refine ⟨_, Text.isLeast_size_begunBefore hle, ?_⟩
      rw [Location.ofOffset_size_begunBefore]
    · intro hle
      rw [Location.ofOffset, Location.ofOffset, Text.begunBefore_eq_self hle,
        Text.begunBefore_eq_self (Nat.le_refl _)]
  case monotone =>
    intro offset offset' hle
    exact Location.isLE_order_ofOffset source hle
  case boundaries =>
    intro place place' hplace hplace'
    have horder := Location.order_ofOffset hplace hplace'
    refine ⟨horder, ?_⟩
    intro heq
    rw [heq, Location.order_self] at horder
    exact Nat.compare_eq_eq.1 horder.symm
  case session =>
    intro steps x hx y hy a ha b hb
    exact (hsession steps x hx a ha).comparesAlike (hsession steps y hy b hb)
  case scanner =>
    intro steps outcomes s htrace x hx y hy a ha b hb
    obtain ⟨rfl, -⟩ := (Scanner.follows_ofSource settings source).of_trace htrace
    exact (hsession steps x hx a ha).comparesAlike (hsession steps y hy b hb)
  case bytes =>
    intro bytes stream hstream a ha b hb
    obtain ⟨text, hbegins⟩ := exists_beginsIn_tokenizeBytes hstream
    exact (hbegins a ha).comparesAlike (hbegins b hb)

/-- Inside a character, past the end, and on both sides of a newline. -/
theorem locations_follow_offsets_inside :
    let source := "é#\nß#".toList
    (∃ place, IsLeast {place | Text.IsBoundary source place ∧ 1 ≤ place} place ∧
      Location.ofOffset source 1 = Location.ofOffset source place) ∧
    Location.ofOffset source 9 = Location.ofOffset source 7 ∧
    ((Location.ofOffset source 2).order (Location.ofOffset source 5)).isLE ∧
    (Location.ofOffset source 3).order (Location.ofOffset source 4) = compare 3 4 ∧
    ∃ outcomes s, (Scanner.ofSource .batch source).trace [.next, .seek 4, .batch]
        = some (outcomes, s) ∧
      ∀ x ∈ outcomes, ∀ y ∈ outcomes,
        ∀ a ∈ x.reply.items, ∀ b ∈ y.reply.items, a.ComparesAlike b := by
  intro source
  have hcounts : Location.origin.counts source := by decide
  obtain ⟨s, -, htrace⟩ := (Scanner.follows_ofSource .batch source).trace_eq_some hcounts
    [.next, .seek 4, .batch]
  obtain ⟨hoffsets, hmonotone, hboundaries, -, hscanner, -⟩ :=
    locations_follow_offsets .batch source
  have hbefore : Text.IsBoundary source 3 := ⟨['é', '#'], ['\n', 'ß', '#'], rfl, rfl⟩
  have hbehind : Text.IsBoundary source 4 := ⟨['é', '#', '\n'], ['ß', '#'], rfl, rfl⟩
  refine ⟨(hoffsets 1).2.2.1 (by decide), (hoffsets 9).2.2.2 (by decide),
    hmonotone 2 5 (by decide), (hboundaries 3 4 hbefore hbehind).1, _, s, htrace, ?_⟩
  exact hscanner _ _ s htrace

end SqlScan
