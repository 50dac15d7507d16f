import SqlScan.Proofs.Reading
import SqlScan.Scanner.Moves

/-!
# What a scanner has taken and what it has ahead

The offsets of a scanner are boundaries because each of them is the size of some text: the source is
what it has seen before its token, what it has taken for the token so far, and what it has ahead.
`Took` says so, every move keeps it, and every look at the source is read off it. What is left that
can go wrong is counting, so a scanner that moves over a text does so if the text can be counted
(`checked`), and otherwise it breaks down.
-/

namespace SqlScan

namespace Location

variable {α β : Type}

/-- A value, if a text can be counted from a location on. -/
def checked (l : Location) (run : List Char) (a : α) : Option α :=
  if l.counts run then some a else none

theorem checked_of_counts {l : Location} {run : List Char} (h : l.counts run) (a : α) :
    l.checked run a = some a := if_pos h

theorem checked_eq_some_iff {l : Location} {run : List Char} {a b : α} :
    l.checked run a = some b ↔ l.counts run ∧ a = b := Option.ite_some_none_eq_some

theorem checked_eq_none_iff {l : Location} {run : List Char} {a : α} :
    l.checked run a = none ↔ ¬ l.counts run := by
  rw [checked, ite_eq_right_iff]
  simp only [reduceCtorEq, imp_false]

theorem map_checked (f : α → β) (l : Location) (run : List Char) (a : α) :
    (l.checked run a).map f = l.checked run (f a) := by
  rw [checked, checked]
  split <;> rfl

theorem counts_append (l : Location) (as bs : List Char) :
    l.counts (as ++ bs) = (l.counts as && (l.after as).counts bs) := by
  induction as generalizing l with
  | nil => rfl
  | cons c cs ih =>
    have hrest := ih (l.advance c)
    simp only [counts] at hrest
    simp only [List.cons_append, counts, trail, List.all_cons, hrest, Bool.and_assoc, after,
      List.foldl_cons]

theorem checked_append (l : Location) (as bs : List Char) (a : α) :
    l.checked (as ++ bs) a = if l.counts as then (l.after as).checked bs a else none := by
  unfold checked
  rw [counts_append]
  cases l.counts as <;> rfl

/-- Counting over two texts is counting over one and then over the other. -/
theorem checked_bind {l : Location} {as bs : List Char} {a : α} {b : β} {f : α → Option β}
    (h : f a = (l.after as).checked bs b) : (l.checked as a >>= f) = l.checked (as ++ bs) b := by
  rw [checked_append, ← h, checked]
  split <;> rfl

/-- What is done behind a text without counting on. -/
theorem checked_bind_some {l : Location} {run : List Char} {a : α} {b : β} {f : α → Option β}
    (h : f a = some b) : (l.checked run a >>= f) = l.checked run b := by
  rw [checked, checked, ← h]
  split <;> rfl

theorem advance?_eq (l : Location) (c : Char) : l.advance? c = l.checked [c] (l.advance c) := by
  simp only [advance?, checked, counts, trail, List.all_cons, List.all_nil, Bool.and_true]

theorem foldlM_advance? (l : Location) (cs : List Char) :
    cs.foldlM advance? l = l.checked cs (l.after cs) := by
  induction cs generalizing l with
  | nil => rfl
  | cons c cs ih =>
    rw [List.foldlM_cons, advance?_eq, show c :: cs = [c] ++ cs from rfl]
    exact checked_bind (ih (l.advance c))

theorem ofOffset?_append (seen behind : List Char) :
    ofOffset? (seen ++ behind) (Text.size seen) = origin.checked seen (origin.after seen) := by
  rw [ofOffset?, Text.begunBefore_append, foldlM_advance?]

end Location

theorem Mark.advance?_eq (m : Mark) (c : Char) :
    m.advance? c = m.location.checked [c] (m.advance c) := by
  rw [advance?, Location.advance?_eq]
  exact Location.map_checked _ _ _ _

namespace Scanner

variable {α β : Type} {s : Scanner} {c : Char} {taken run ahead : List Char}

/-- The scanner some text further on. -/
def moved (s : Scanner) (run : List Char) : Scanner := { s with mark := s.mark.after run }

@[simp] theorem moved_nil (s : Scanner) : s.moved [] = s := rfl

@[simp] theorem moved_moved (s : Scanner) (run more : List Char) :
    (s.moved run).moved more = s.moved (run ++ more) := by
  rw [moved, moved, moved, Mark.after_append]

@[simp] theorem start_moved (s : Scanner) (run : List Char) : (s.moved run).start = s.start := rfl

@[simp] theorem mark_moved (s : Scanner) (run : List Char) :
    (s.moved run).mark = s.mark.after run := rfl

@[simp] theorem source_moved (s : Scanner) (run : List Char) : (s.moved run).source = s.source := rfl

theorem position_moved (s : Scanner) (run : List Char) :
    (s.moved run).position = s.position + Text.size run := Mark.offset_after s.mark run

/-- A value, if a scanner can count over some text. -/
def checked (s : Scanner) (run : List Char) (a : α) : Option α := s.mark.location.checked run a

@[simp] theorem checked_nil (s : Scanner) (a : α) : s.checked [] a = some a := rfl

/-- Moving over two texts is moving over one and then over the other. -/
theorem checked_bind (run more : List Char) {a : α} {b : β} {f : α → Option β}
    (h : f a = (s.moved run).checked more b) : (s.checked run a >>= f) = s.checked (run ++ more) b := by
  apply Location.checked_bind
  rw [h, checked, mark_moved, Mark.location_after]

/-- What is done behind a text without moving on. -/
theorem checked_bind_some {a : α} {b : β} {f : α → Option β} (h : f a = some b) :
    (s.checked run a >>= f) = s.checked run b :=
  Location.checked_bind_some h

/-! ### Taken and ahead -/

/-- Since its start the scanner has taken one text, and it has another one ahead. -/
def Took (s : Scanner) (taken ahead : List Char) : Prop :=
  ∃ seen, s.source = seen ++ taken ++ ahead ∧ s.start = Mark.origin.after seen ∧
    s.mark = s.start.after taken

theorem Took.moved (h : s.Took taken (run ++ ahead)) : (s.moved run).Took (taken ++ run) ahead := by
  obtain ⟨seen, hsource, hstart, hmark⟩ := h
  refine ⟨seen, ?_, hstart, ?_⟩
  · rw [source_moved, hsource]
    simp only [List.append_assoc]
  · rw [mark_moved, start_moved, hmark, Mark.after_append]

theorem Took.moved_cons (h : s.Took taken (c :: ahead)) :
    (s.moved [c]).Took (taken ++ [c]) ahead :=
  Took.moved (show s.Took taken ([c] ++ ahead) from h)

theorem Took.moved_of_eq {text : List Char} (h : s.Took taken text) (htext : run ++ ahead = text) :
    (s.moved run).Took (taken ++ run) ahead :=
  Took.moved (htext ▸ h)

/-- A token may begin anywhere. -/
theorem Took.restart (h : s.Took taken ahead) : { s with start := s.mark }.Took [] ahead := by
  obtain ⟨seen, hsource, hstart, hmark⟩ := h
  refine ⟨seen ++ taken, by simpa using hsource, ?_, rfl⟩
  show s.mark = _
  rw [hmark, hstart, Mark.after_append]

theorem Took.mark_eq (h : s.Took taken ahead) : s.mark = s.start.after taken := by
  obtain ⟨_, -, -, hmark⟩ := h
  exact hmark

theorem Took.exists_seen (h : s.Took taken ahead) :
    ∃ seen, s.source = seen ++ ahead ∧ s.mark = Mark.origin.after seen := by
  obtain ⟨seen, hsource, hstart, hmark⟩ := h
  refine ⟨seen ++ taken, hsource, ?_⟩
  rw [hmark, hstart, Mark.after_append]

/-! ### Looking -/

theorem Took.textFrom_after (h : s.Took taken (run ++ ahead)) :
    s.textFrom (s.position + Text.size run) = some ahead := by
  obtain ⟨seen, hsource, hmark⟩ := h.exists_seen
  rw [textFrom, position, hmark, Mark.origin_after_offset, ← Text.size_append, hsource,
    ← List.append_assoc, Text.cut?_append, Option.map_some]

theorem Took.textFrom (h : s.Took taken ahead) : s.textFrom s.position = some ahead :=
  Took.textFrom_after (show s.Took taken ([] ++ ahead) from h)

theorem Took.peek (h : s.Took taken ahead) : s.peek = some ahead.head? := by
  rw [Scanner.peek, h.textFrom, Option.map_some]

theorem Took.peekNext (h : s.Took taken ahead) : s.peekNext = some ahead.tail.head? := by
  rw [Scanner.peekNext, h.textFrom, Option.map_some]

/-- The text behind the front part of what was taken. -/
theorem Took.textBetween {front part : List Char} (h : s.Took (front ++ part) ahead) :
    s.textBetween (s.start.after front).offset s.position = some part := by
  obtain ⟨seen, hsource, hstart, hmark⟩ := h
  have hslice := Text.slice?_append (seen ++ front) part ahead
  rw [Scanner.textBetween, position, hsource, hmark, hstart, ← Mark.after_append,
    ← Mark.after_append, Mark.origin_after_offset, Mark.origin_after_offset]
  simpa only [List.append_assoc] using hslice

theorem Took.size_source (h : s.Took taken ahead) :
    Text.size s.source = s.position + Text.size ahead := by
  obtain ⟨seen, hsource, hmark⟩ := h.exists_seen
  rw [hsource, position, hmark, Mark.origin_after_offset, Text.size_append]

/-- The text behind a part of what is ahead. -/
theorem Took.textBetween_ahead {part : List Char} (h : s.Took taken (run ++ part ++ ahead)) :
    s.textBetween (s.position + Text.size run) (s.position + Text.size (run ++ part))
      = some part := by
  obtain ⟨seen, hsource, hmark⟩ := h.exists_seen
  have hslice := Text.slice?_append (seen ++ run) part ahead
  rw [Scanner.textBetween, position, hmark, Mark.origin_after_offset, hsource, ← Text.size_append,
    ← Text.size_append]
  simpa only [List.append_assoc] using hslice

theorem Took.taken_eq (h : s.Took taken ahead) : s.taken = some taken :=
  Took.textBetween (show s.Took ([] ++ taken) ahead from h)

theorem Took.snippet {front part : List Char} (h : s.Took (front ++ part) ahead) :
    s.snippet (s.start.after front).offset s.position = some (SqlScan.snippet part) := by
  have hcut := Text.cut?_append (part.take snippetLimit) (part.drop snippetLimit)
  rw [List.take_append_drop] at hcut
  rw [Scanner.snippet, h.textBetween, SqlScan.snippet]
  show (if (part.drop snippetLimit).isEmpty then _ else _) = _
  split
  · rfl
  · rw [hcut]
    rfl

/-- A fault from a mark on the way. -/
theorem Took.faultFrom {front part : List Char} (h : s.Took (front ++ part) ahead) (cause : Cause) :
    s.faultFrom cause (s.start.after front) =
      some ⟨cause, SqlScan.snippet part, (s.start.after front).spanTo s.mark,
        (s.start.after front).location⟩ := by
  rw [Scanner.faultFrom, h.snippet]
  rfl

/-- A fault over all that was moved over from a mark on. -/
theorem Took.faultFrom_moved (h : s.Took taken (run ++ ahead)) (cause : Cause) :
    (s.moved run).faultFrom cause s.mark =
      some ⟨cause, SqlScan.snippet run, s.mark.spanTo (s.mark.after run), s.mark.location⟩ := by
  have hfault := h.moved.faultFrom cause
  rwa [start_moved, ← h.mark_eq, mark_moved] at hfault

/-! ### Moving -/

theorem Took.advance_nil (h : s.Took taken []) : s.advance = some (none, s) := by
  rw [advance, h.peek]
  rfl

theorem Took.advance_cons (h : s.Took taken (c :: ahead)) :
    s.advance = s.checked [c] (some c, s.moved [c]) := by
  rw [advance, h.peek]
  show (s.mark.advance? c >>= _) = _
  rw [Mark.advance?_eq]
  exact checked_bind_some (s := s) rfl

theorem Took.eat_cons (h : s.Took taken (c :: ahead)) :
    s.eat c = s.checked [c] (true, s.moved [c]) := by
  rw [eat, h.peek]
  show (if some c = some c then _ else _) = _
  rw [if_pos rfl, h.advance_cons]
  exact checked_bind_some rfl

theorem Took.eat_of_ne (h : s.Took taken ahead) (hc : ahead.head? ≠ some c) :
    s.eat c = some (false, s) := by
  rw [eat, h.peek]
  show (if ahead.head? = some c then _ else _) = _
  rw [if_neg hc]
  rfl

/-- A loop goes on behind a round that moved over some text. -/
theorem Took.goOn {t : Scanner} {got behind : List Char} (hs : s.Took taken ahead)
    (ht : t.Took got behind) (run : List Char) (hahead : run ++ behind = ahead) (hrun : run ≠ [])
    (rest : Option α) : (s.goOn t fun _ => rest) = rest := by
  have hpos := Text.size_pos_of_ne_nil hrun
  have hs_size := hs.size_source
  have ht_size := ht.size_source
  rw [← hahead, Text.size_append] at hs_size
  have hlt : t.left < s.left := by
    rw [left, left]
    omega
  exact dif_pos hlt

theorem Took.eatWhile (h : s.Took taken ahead) (wanted : Char → Bool) :
    s.eatWhile wanted = s.checked (ahead.takeWhile wanted) (s.moved (ahead.takeWhile wanted)) := by
  induction ahead generalizing s taken with
  | nil =>
    rw [Scanner.eatWhile, h.peek]
    rfl
  | cons c cs ih =>
    rw [Scanner.eatWhile, h.peek]
    show (if wanted c then _ else _) = _
    by_cases hc : wanted c
    · rw [if_pos hc, h.advance_cons, List.takeWhile_cons_of_pos hc]
      refine checked_bind [c] (cs.takeWhile wanted) ?_
      dsimp only
      rw [h.goOn h.moved_cons [c] rfl (by simp)]
      simpa using ih h.moved_cons
    · rw [if_neg hc, List.takeWhile_cons_of_neg hc]
      rfl

theorem Took.advanceTo (h : s.Took taken (run ++ ahead)) :
    s.advanceTo (s.position + Text.size run) = s.checked run (s.moved run) := by
  induction run generalizing s taken with
  | nil =>
    rw [Scanner.advanceTo, Text.size_nil, Nat.add_zero, if_neg (Nat.lt_irrefl _)]
    rfl
  | cons c cs ih =>
    have hpos := Char.utf8Size_pos c
    rw [Scanner.advanceTo, if_pos (by rw [Text.size_cons]; omega), h.advance_cons]
    refine checked_bind [c] cs ?_
    dsimp only
    rw [h.goOn h.moved_cons [c] rfl (by simp)]
    have hrest := ih h.moved_cons
    rw [position_moved, Text.size_cons, Text.size_nil, Nat.add_zero, Nat.add_assoc] at hrest
    simpa using hrest

/-- Seeking goes to the boundaries of the source, if the text before can be counted. -/
theorem seek_append (s : Scanner) {seen behind : List Char} (hsource : s.source = seen ++ behind) :
    s.seek (Text.size seen) = Location.origin.checked seen
      (true, { s with mark := Mark.origin.after seen, start := Mark.origin.after seen }) := by
  have hmark : Mark.origin.after seen = ⟨Text.size seen, Location.origin.after seen⟩ := by
    rw [← Mark.origin_after_offset seen, ← show _ = Location.origin.after seen from
      Mark.location_after Mark.origin seen]
  rw [seek, hsource, Text.cut?_append, Location.ofOffset?_append, hmark]
  exact Location.checked_bind_some rfl

theorem seek_of_cut?_eq_none {offset : Nat} (h : Text.cut? offset s.source = none) :
    s.seek offset = some (false, s) := by
  rw [seek, h]
  rfl

end Scanner

end SqlScan
