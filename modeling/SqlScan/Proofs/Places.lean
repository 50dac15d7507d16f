import Mathlib.Data.List.DropRight
import SqlScan.Proofs.Reading

/-!
# Places further down

What stands behind some whole lines is some bytes and lines further down than it would be at the start
of a source, in the same columns. Moving a mark over a text commutes with that.
-/

namespace SqlScan

/-- The span some bytes further on. -/
def Span.shift (bytes : Nat) (s : Span) : Span := ⟨s.start + bytes, s.stop + bytes⟩

/-- The place some lines further down, in the same column. -/
def Location.shift (lines : Nat) (l : Location) : Location := ⟨l.line + lines, l.column⟩

def Mark.shift (bytes lines : Nat) (m : Mark) : Mark :=
  ⟨m.offset + bytes, m.location.shift lines⟩

def Token.shift (bytes lines : Nat) (t : Token) : Token :=
  { t with span := t.span.shift bytes, location := t.location.shift lines }

def Fault.shift (bytes lines : Nat) (f : Fault) : Fault :=
  { f with span := f.span.shift bytes, location := f.location.shift lines }

def Item.shift (bytes lines : Nat) : Item → Item
  | .token t => .token (t.shift bytes lines)
  | .fault f => .fault (f.shift bytes lines)

section

variable (bytes lines : Nat)

theorem Location.advance_shift (l : Location) (c : Char) :
    (l.shift lines).advance c = (l.advance c).shift lines := by
  unfold advance
  split
  · simp only [shift, Nat.add_right_comm]
  · rfl

theorem Mark.after_shift (m : Mark) (cs : List Char) :
    (m.shift bytes lines).after cs = (m.after cs).shift bytes lines := by
  induction cs generalizing m with
  | nil => rfl
  | cons c cs ih =>
    have hstep : (m.shift bytes lines).advance c = (m.advance c).shift bytes lines := by
      simp only [advance, shift, Location.advance_shift, Nat.add_right_comm]
    rw [after_cons, after_cons, hstep, ih]

theorem Lexeme.item_shift (x : Lexeme) (start stop : Mark) :
    x.item (start.shift bytes lines) (stop.shift bytes lines)
      = (x.item start stop).shift bytes lines := by
  unfold item
  split <;> rfl

theorem Item.isEnd_shift (item : Item) : (item.shift bytes lines).isEnd = item.isEnd := by
  cases item <;> rfl

theorem Item.filterMap_token?_shift (items : List Item) :
    (items.map (Item.shift bytes lines)).filterMap Item.token?
      = (items.filterMap Item.token?).map (Token.shift bytes lines) :=
  filterMap_map (fun item => by cases item <;> rfl) items

theorem Item.filterMap_fault?_shift (items : List Item) :
    (items.map (Item.shift bytes lines)).filterMap Item.fault?
      = (items.filterMap Item.fault?).map (Fault.shift bytes lines) :=
  filterMap_map (fun item => by cases item <;> rfl) items

end

/-! ### Behind whole lines -/

theorem Location.line_after (l : Location) (cs : List Char) :
    (l.after cs).line = l.line + cs.count '\n' := by
  induction cs generalizing l with
  | nil => rfl
  | cons c cs ih =>
    show ((l.advance c).after cs).line = _
    rw [ih, advance, List.count_cons]
    by_cases hc : c = '\n'
    · simp [hc]
      omega
    · simp [hc]

/-- A column counts the characters behind the last newline. -/
theorem Location.column_origin_after (cs : List Char) :
    (origin.after cs).column = 1 + (cs.rtakeWhile (· != '\n')).length := by
  induction cs using List.reverseRecOn with
  | nil => rfl
  | append_singleton cs c ih =>
    have hstep : origin.after (cs ++ [c]) = (origin.after cs).advance c := List.foldl_concat _ _ _ _
    rw [hstep, advance, List.rtakeWhile_concat]
    by_cases hc : c = '\n'
    · simp [hc]
    · simp [hc, ih, Nat.add_assoc]

/-- Behind a newline a source begins again, further down. -/
theorem Mark.origin_after_newline (cs : List Char) :
    origin.after (cs ++ ['\n']) = origin.shift (Text.size cs + 1) (cs.count '\n' + 1) := by
  have hoffset : (origin.after cs).offset = Text.size cs := by
    rw [offset_after, origin, Nat.zero_add]
  have hline : (origin.after cs).location.line = 1 + cs.count '\n' := by
    rw [location_after, Location.line_after]
    rfl
  have hstep : (origin.after cs).after ['\n']
      = ⟨(origin.after cs).offset + 1, ⟨(origin.after cs).location.line + 1, 1⟩⟩ := rfl
  rw [after_append, hstep, hoffset, hline]
  simp only [shift, Location.shift, origin, Location.origin, Nat.zero_add, Nat.add_assoc]

end SqlScan
