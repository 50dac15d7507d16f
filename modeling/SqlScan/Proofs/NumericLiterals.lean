import SqlScan.Proofs.Digits
import SqlScan.Proofs.Numerals
import SqlScan.Proofs.Replies
import SqlScan.Proofs.Resumption

/-!
# Numeric literals and their values

A text that begins with a digit begins with one numeral that takes all it can (`leads_iff`). What that
numeral is read as is told by its exact value: an integer if it has neither a fraction nor an exponent
and its value fits, the nearest binary64 number if it has one of them and that number is finite, and
otherwise the fault that says what is wrong.
-/

namespace SqlScan

/-! ### The numeral that begins a text -/

/-- The text is the numeral and then the rest, with which the numeral could not go on. -/
structure Numeral.Leads (n : Numeral) (text rest : List Char) : Prop where
  append : text = n.text ++ rest
  ne_nil : n.whole ≠ []
  wellFormed : n.WellFormed
  digit : ∀ c ∈ rest.head?, c.isDigit = false
  point : n.fraction = [] → n.exponent = none →
    ∀ c more, rest = '.' :: c :: more → c.isDigit = false
  letter : n.exponent = none → ∀ c ∈ rest.head?, c ≠ 'e' ∧ c ≠ 'E'
  sign : ∀ e ∈ n.exponent, e.sign = none → e.digits = [] → ∀ c ∈ rest.head?, c ≠ '+' ∧ c ≠ '-'

namespace Numeral

variable {n m : Numeral} {text rest rest' : List Char}

theorem isInteger_iff : n.isInteger ↔ n.fraction = [] ∧ n.exponent = none := by
  simp [isInteger]

theorem Leads.endsBefore (h : n.Leads text rest) : n.EndsBefore rest where
  digit := h.digit
  letter hnone := Exponent.read?_eq_none_of_head (h.letter hnone)
  point hinteger := by
    obtain ⟨hfraction, hexponent⟩ := isInteger_iff.1 hinteger
    unfold fraction?
    split
    · rename_i c more
      rw [if_neg (by simp [h.point hfraction hexponent c more rfl])]
    · rfl
  sign e he hdigits hsign c hc := by
    rw [not_or]
    exact h.sign e he hsign hdigits c hc

theorem leads_iff : n.Leads text rest ↔ read text = (n, rest) ∧ n.whole ≠ [] := by
  constructor
  · intro h
    rw [h.append]
    exact ⟨read_text_append h.wellFormed h.endsBefore, h.ne_nil⟩
  · rintro ⟨hread, hne⟩
    have happend := text_append_of_read text
    have hwell := wellFormed_read text
    have hend := endsBefore_read text
    rw [hread] at happend hwell hend
    refine ⟨happend.symm, hne, hwell, hend.digit, ?_, ?_, ?_⟩
    · rintro hfraction hexponent c more rfl
      exact fraction?_point_iff.1 (hend.point (isInteger_iff.2 ⟨hfraction, hexponent⟩)) c rfl
    · intro hnone
      exact Exponent.head_of_read?_eq_none (hend.letter hnone)
    · intro e he hsign hdigits c hc
      rw [← not_or]
      exact hend.sign e he hdigits hsign c hc

theorem Leads.unique (h : n.Leads text rest) (h' : m.Leads text rest') : m = n ∧ rest' = rest :=
  Prod.mk.inj ((leads_iff.1 h').1.symm.trans (leads_iff.1 h).1)

theorem Leads.exists_digit (h : n.Leads text rest) : ∃ c cs, text = c :: cs ∧ c.isDigit := by
  obtain ⟨c, cs, hwhole⟩ := List.exists_cons_of_ne_nil h.ne_nil
  have happend := h.append
  rw [Numeral.text, hwhole] at happend
  exact ⟨c, _, happend, h.wellFormed.whole c (by simp [hwhole])⟩

/-- A digit begins a numeral. -/
theorem exists_leads {c : Char} (hc : c ∈ text.head?) (hdigit : c.isDigit) :
    ∃ (n : Numeral) (rest : List Char), n.Leads text rest := by
  obtain ⟨cs, rfl⟩ := List.head?_eq_some_iff.1 (Option.mem_def.1 hc)
  refine ⟨(read (c :: cs)).1, (read (c :: cs)).2, leads_iff.2 ⟨rfl, ?_⟩⟩
  rw [whole_read, List.takeWhile_cons_of_pos hdigit]
  exact List.cons_ne_nil _ _

/-! ### What a numeral is read as -/

/-- The content is what the numeral is by its exact value. -/
inductive Means (n : Numeral) : Content → Prop where
  | missingDigits {e : Exponent} (he : e ∈ n.exponent) (hdigits : e.digits = []) :
      Means n (.fault (.malformedNumber .missingExponentDigits))
  | integer {i : Int64} (hfraction : n.fraction = []) (hexponent : n.exponent = none)
      (hvalue : (i.toInt : ℚ) = n.value) : Means n (.token (.literal (.integer i)))
  | integerOutOfRange (hfraction : n.fraction = []) (hexponent : n.exponent = none)
      (hvalue : 2 ^ 63 ≤ n.value) : Means n (.fault (.malformedNumber .integerOutOfRange))
  | float {f : Binary64} (hparts : n.fraction ≠ [] ∨ n.exponent ≠ none)
      (hdigits : ∀ e ∈ n.exponent, e.digits ≠ []) (hpositive : f.negative = false)
      (hfinite : f.isFinite) (hvalue : Binary64.IsNearest n.value f.magnitude) :
      Means n (.token (.literal (.float f)))
  | floatOutOfRange (hparts : n.fraction ≠ [] ∨ n.exponent ≠ none)
      (hdigits : ∀ e ∈ n.exponent, e.digits ≠ [])
      (hvalue : Binary64.IsNearest n.value Binary64.infinity) :
      Means n (.fault (.malformedNumber .floatOutOfRange))

theorem lacksDigits_iff : n.lacksDigits ↔ ∃ e ∈ n.exponent, e.digits = [] := by
  simp [lacksDigits, Option.any_eq_true]

theorem content_of_lacksDigits (h : n.lacksDigits) :
    n.content = .fault (.malformedNumber .missingExponentDigits) := by
  rw [content, literal, if_pos h]

theorem lacksDigits_eq_false (hdigits : ∀ e ∈ n.exponent, e.digits ≠ []) : n.lacksDigits = false := by
  rw [← Bool.not_eq_true, lacksDigits_iff]
  rintro ⟨e, he, hnone⟩
  exact hdigits e he hnone

theorem literal_of_isInteger (h : n.isInteger) :
    n.literal = if Decimal.natOfDigits n.whole < integerBound
      then .ok (.integer (Int64.ofNat (Decimal.natOfDigits n.whole)))
      else .error .integerOutOfRange := by
  have hlacks : n.lacksDigits = false := lacksDigits_eq_false (by simp [(isInteger_iff.1 h).2])
  rw [literal, hlacks, h]
  rfl

theorem isInteger_eq_false (h : n.fraction ≠ [] ∨ n.exponent ≠ none) : n.isInteger = false := by
  rw [← Bool.not_eq_true, isInteger_iff, not_and_or]
  exact h

theorem literal_of_parts (h : n.fraction ≠ [] ∨ n.exponent ≠ none)
    (hdigits : ∀ e ∈ n.exponent, e.digits ≠ []) :
    n.literal = match Binary64.ofDecimal? n.decimal with
      | some value => .ok (.float value)
      | none => .error .floatOutOfRange := by
  rw [literal, lacksDigits_eq_false hdigits, isInteger_eq_false h]
  rfl

theorem integerBound_eq : integerBound = 2 ^ 63 := rfl

theorem integerBound_le_iff {value : Nat} : integerBound ≤ value ↔ (2 ^ 63 : ℚ) ≤ value := by
  rw [integerBound_eq]
  exact_mod_cast Iff.rfl

theorem Means.content_eq {content : Content} (h : n.Means content) : n.content = content := by
  cases h with
  | missingDigits he hdigits => exact content_of_lacksDigits (lacksDigits_iff.2 ⟨_, he, hdigits⟩)
  | @integer i hfraction hexponent hvalue =>
    have hinteger := isInteger_iff.2 ⟨hfraction, hexponent⟩
    rw [value_of_isInteger hinteger] at hvalue
    have hnat : i.toInt = Decimal.natOfDigits n.whole := by exact_mod_cast hvalue
    have hbound := i.toInt_lt
    have hlt : Decimal.natOfDigits n.whole < integerBound := by
      rw [integerBound_eq]
      omega
    have hi : Int64.ofNat (Decimal.natOfDigits n.whole) = i := by
      rw [← Int64.toInt_inj, Int64.toInt_ofNat_of_lt hlt, hnat]
    rw [content, literal_of_isInteger hinteger, if_pos hlt, hi]
  | integerOutOfRange hfraction hexponent hvalue =>
    have hinteger := isInteger_iff.2 ⟨hfraction, hexponent⟩
    rw [value_of_isInteger hinteger, ← integerBound_le_iff] at hvalue
    rw [content, literal_of_isInteger hinteger, if_neg (not_lt.2 hvalue)]
  | float hparts hdigits hpositive hfinite hvalue =>
    rw [← value_decimal] at hvalue
    rw [content, literal_of_parts hparts hdigits,
      Binary64.ofDecimal?_eq_some_iff.2 ⟨hpositive, hfinite, hvalue⟩]
  | floatOutOfRange hparts hdigits hvalue =>
    rw [← value_decimal] at hvalue
    rw [content, literal_of_parts hparts hdigits, Binary64.ofDecimal?_eq_none_iff.2 hvalue]

theorem means_content (n : Numeral) : n.Means n.content := by
  by_cases hlacks : n.lacksDigits
  · obtain ⟨e, he, hdigits⟩ := lacksDigits_iff.1 hlacks
    rw [content_of_lacksDigits hlacks]
    exact .missingDigits he hdigits
  have hdigits : ∀ e ∈ n.exponent, e.digits ≠ [] :=
    fun e he hnone => hlacks (lacksDigits_iff.2 ⟨e, he, hnone⟩)
  by_cases hinteger : n.isInteger
  · obtain ⟨hfraction, hexponent⟩ := isInteger_iff.1 hinteger
    rw [content, literal_of_isInteger hinteger]
    by_cases hlt : Decimal.natOfDigits n.whole < integerBound
    · rw [if_pos hlt]
      refine .integer hfraction hexponent ?_
      rw [value_of_isInteger hinteger, Int64.toInt_ofNat_of_lt hlt]
      rfl
    · rw [if_neg hlt]
      refine .integerOutOfRange hfraction hexponent ?_
      rw [value_of_isInteger hinteger, ← integerBound_le_iff]
      exact not_lt.1 hlt
  have hparts : n.fraction ≠ [] ∨ n.exponent ≠ none := by
    rwa [isInteger_iff, not_and_or] at hinteger
  rw [content, literal_of_parts hparts hdigits]
  cases hread : Binary64.ofDecimal? n.decimal with
  | some f =>
    obtain ⟨hpositive, hfinite, hvalue⟩ := Binary64.ofDecimal?_eq_some_iff.1 hread
    rw [value_decimal] at hvalue
    exact .float hparts hdigits hpositive hfinite hvalue
  | none =>
    have hvalue := Binary64.ofDecimal?_eq_none_iff.1 hread
    rw [value_decimal] at hvalue
    exact .floatOutOfRange hparts hdigits hvalue

theorem means_iff {content : Content} : n.Means content ↔ content = n.content := by
  constructor
  · exact fun h => h.content_eq.symm
  · rintro rfl
    exact n.means_content

end Numeral

/-! ### Reading a numeral -/

/-- The item that a part of the source is. -/
def Content.item (covered : List Char) (span : Span) (place : Location) : Content → Item
  | .token kind => .token ⟨kind.textOf covered, kind, span, place⟩
  | .fault cause => .fault ⟨cause, snippet covered, span, place⟩

namespace Lexeme

theorem item_eq (x : Lexeme) (start stop : Mark) :
    x.item start stop = x.content.item x.covered (start.spanTo stop) start.location := by
  unfold item
  split <;> rename_i hcontent <;> rw [hcontent] <;> rfl

/-- A numeral that leads a text is what is read there, behind a gap or none. -/
theorem read_of_leads {n : Numeral} {gap text rest : List Char} (h : n.Leads text rest)
    (hgap : Gap.Trivia text gap) :
    read (gap ++ text) = (Lexeme.mk [] n.text rest n.content).behind gap := by
  obtain ⟨c, cs, rfl, hdigit⟩ := h.exists_digit
  have hclear : Gap.read (c :: cs) = .clear [] (c :: cs) := by
    apply Gap.read_of_head
    · rw [Bool.eq_false_iff]
      intro hblank
      rw [Text.isDigit_of_isBlank hblank] at hdigit
      cases hdigit
    · rintro rfl
      exact absurd hdigit (by decide)
    · rintro rfl
      exact absurd hdigit (by decide)
  rw [read_append_of_gap (Gap.read_append_of_trivia hgap), (read_of_clear hclear).1, front,
    ofChar_digit hdigit, ofNumeral_eq, (Numeral.leads_iff.1 h).1]
  rfl

end Lexeme

/-- Where a digit is next, what is read is the content of the numeral there, and it covers just that
numeral. -/
theorem Cursor.Consistent.next_of_leads {c : Cursor} {n : Numeral} {gap text rest : List Char}
    (hc : c.Consistent) (hahead : c.ahead = gap ++ text) (hgap : Gap.Trivia text gap)
    (hn : n.Leads text rest) :
    let start := c.position + Text.size gap
    let stop := start + Text.size n.text
    c.next.1 = n.content.item n.text ⟨start, stop⟩ (Location.ofOffset c.source start) ∧
      c.next.2.position = stop ∧ c.next.2.ahead = rest := by
  have hread := Lexeme.read_of_leads hn hgap
  rw [← hahead] at hread
  rw [hc.next_behind hahead hread rfl, Lexeme.item_eq]
  simp only [position, Mark.spanTo, Mark.offset_after, and_self]

/-! ### Literals in range -/

/-- A number that a literal can be: not below zero and not beyond the ends of its type. -/
def Literal.InRange : Literal → Prop
  | .integer i => 0 ≤ i.toInt ∧ i.toInt < 2 ^ 63
  | .float f => f.negative = false ∧ f.isFinite
  | _ => True

def Content.InRange : Content → Prop
  | .token (.literal value) => value.InRange
  | _ => True

theorem Numeral.inRange_content (n : Numeral) : n.content.InRange := by
  have hmeans := n.means_content
  generalize n.content = content at hmeans ⊢
  cases hmeans with
  | @integer i hfraction hexponent hvalue =>
    refine ⟨?_, i.toInt_lt⟩
    rw [value_of_isInteger (isInteger_iff.2 ⟨hfraction, hexponent⟩)] at hvalue
    have hnat : i.toInt = Decimal.natOfDigits n.whole := by exact_mod_cast hvalue
    omega
  | float hparts hdigits hpositive hfinite hvalue => exact ⟨hpositive, hfinite⟩
  | _ => trivial

theorem Lexeme.inRange_read (text : List Char) : (read text).content.InRange := by
  cases hgap : Gap.read text with
  | unclosed gap comment =>
    rw [read, hgap]
    trivial
  | clear gap rest =>
    rw [(read_of_clear hgap).1]
    refine content_front_cases (motive := Content.InRange) trivial (fun _ => trivial)
      (fun _ => trivial) (fun _ => trivial) ?name trivial (fun _ => trivial) (fun _ => trivial)
      Numeral.inRange_content trivial (fun _ => trivial) rest
    case name =>
      intro segments
      unfold TokenKind.ofSegments
      split <;> trivial

theorem Cursor.inRange_next {c : Cursor} {t : Token} (h : c.next.1 = .token t) {value : Literal}
    (hkind : t.kind = .literal value) : value.InRange := by
  have hrange := Lexeme.inRange_read c.ahead
  rwa [(content_of_next h).1, hkind] at hrange

theorem Token.ReadIn.inRange {source : List Char} {t : Token} (h : t.ReadIn source)
    {value : Literal} (hkind : t.kind = .literal value) : value.InRange := by
  obtain ⟨c, -, -, hnext | rfl⟩ := h
  · exact Cursor.inRange_next hnext hkind
  · cases hkind

/-- Wherever a digit is next, behind some gap or none, just one numeral leads the text there. What is
read is what that numeral means by its exact value, a number or a fault, and it covers the numeral
and nothing else. No literal that a step or a pass answers is negative or out of range. -/
theorem numeric_literals_exact (settings : Settings) (source : List Char) :
    (∀ session, Session.Reachable settings source session → ∀ gap text,
      session.cursor.ahead = gap ++ text → Gap.Trivia text gap → (∃ c ∈ text.head?, c.isDigit) →
      let start := session.position + Text.size gap
      ∃ (n : Numeral) (rest : List Char) (content : Content) (after : Session),
        (∀ m behind, Numeral.Leads m text behind ↔ m = n ∧ behind = rest) ∧
        (∀ other, n.Means other ↔ other = content) ∧
        let stop := start + Text.size n.text
        session.perform .next = (.item (content.item n.text ⟨start, stop⟩ (.ofOffset source start)),
          [], after) ∧
        after.position = stop ∧ after.cursor.ahead = rest) ∧
    (∀ session, Session.Reachable settings source session → ∀ step t,
      .token t ∈ (session.perform step).1.items → ∀ value, t.kind = .literal value → value.InRange) ∧
    ∀ stream, (tokenize settings source).answer = .ok stream → ∀ t ∈ stream.tokens,
      ∀ value, t.kind = .literal value → value.InRange := by
  refine ⟨?_, fun session hsession step t ht value => (hsession.readIn ht).inRange,
    fun stream h t ht value => (Token.readIn_of_answer h ht).inRange⟩
  rintro session hsession gap text hahead hgap ⟨c, hc, hdigit⟩
  obtain ⟨hconsistent, rfl⟩ := hsession.consistent
  obtain ⟨n, rest, hn⟩ := Numeral.exists_leads hc hdigit
  obtain ⟨hitem, hposition, hrest⟩ := hconsistent.next_of_leads hahead hgap hn
  refine ⟨n, rest, n.content, _, ?_, fun _ => Numeral.means_iff, Session.perform_next hitem,
    hposition, hrest⟩
  intro m behind
  constructor
  · exact hn.unique
  · rintro ⟨rfl, rfl⟩
    exact hn

/-- A point without a digit behind it is not taken, and neither is what follows an exponent that lacks
its digits. -/
theorem numeric_literals_exact_point :
    let source := ['0', '7', '.', 'e', ' ', '1', 'e', '+', 'x']
    (∃ after, (Session.ofSource .batch source).perform .next
        = (.item (.token ⟨"07", .literal (.integer 7), ⟨0, 2⟩, ⟨1, 1⟩⟩), [], after) ∧
      after.cursor.ahead = ['.', 'e', ' ', '1', 'e', '+', 'x']) ∧
    ∃ after, ((Session.ofSource .batch source).perform (.seek 4)).2.2.perform .next
        = (.item (.fault ⟨.malformedNumber .missingExponentDigits, "1e+", ⟨5, 8⟩, ⟨1, 6⟩⟩), [],
          after) ∧
      after.cursor.ahead = ['x'] := by
  intro source
  have hexact := (numeric_literals_exact .batch source).1
  constructor
  · obtain ⟨n, rest, content, after, hleads, hmeans, hperform, -, hrest⟩ :=
      hexact _ .start [] source rfl .nil ⟨'0', rfl, by decide⟩
    have hwhole : Numeral.Leads ⟨['0', '7'], [], none⟩ source
        ['.', 'e', ' ', '1', 'e', '+', 'x'] :=
      ⟨rfl, by simp, ⟨by simp, by simp, by simp⟩, by simp, by simp, by simp, by simp⟩
    obtain ⟨rfl, rfl⟩ := (hleads _ _).1 hwhole
    obtain rfl := (hmeans (.token (.literal (.integer 7)))).1
      (.integer rfl rfl (by rw [Numeral.value_of_isInteger rfl]; rfl))
    exact ⟨after, hperform, hrest⟩
  · obtain ⟨n, rest, content, after, hleads, hmeans, hperform, -, hrest⟩ :=
      hexact _ (.step .start (.seek 4)) [' '] ['1', 'e', '+', 'x'] (by decide)
        (.blank (by decide) .nil) ⟨'1', rfl, by decide⟩
    have hexponent : Exponent.WellFormed ⟨'e', some '+', []⟩ := ⟨.inl rfl, by simp, by simp⟩
    have hsigned : Numeral.Leads ⟨['1'], [], some ⟨'e', some '+', []⟩⟩ ['1', 'e', '+', 'x'] ['x'] :=
      ⟨rfl, by simp, ⟨by simp, by simp, by simpa using hexponent⟩, by simp, by simp, by simp, by simp⟩
    obtain ⟨rfl, rfl⟩ := (hleads _ _).1 hsigned
    obtain rfl := (hmeans _).1 (.missingDigits rfl rfl)
    exact ⟨after, hperform, hrest⟩

end SqlScan
