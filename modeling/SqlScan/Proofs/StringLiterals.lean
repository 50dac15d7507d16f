import SqlScan.Proofs.Resumption

/-!
# String literals as they are written

A string is written between single quotes, with its own quotes twice. A text that begins with a quote
begins with at most one written string that no further quote follows, whatever runs of quotes it
holds: reading the body finds that string if there is one (`closes_iff`), and otherwise takes all of
the text. So writing a string and reading a literal are inverse, and what is read as a literal is
exactly a string that is closed.
-/

namespace SqlScan

/-- The text begins with this string as it is written, and goes on after it with no quote. -/
structure Closes (text : List Char) (value : String) (rest : List Char) : Prop where
  append : text = (Literal.string value).written.toList ++ rest
  no_quote : rest.head? ≠ some '\''

theorem toList_written_string (value : String) :
    (Literal.string value).written.toList = Quoted.text '\'' value.toList := by
  rw [Literal.written, String.toList_ofList]

theorem closes_iff {body rest : List Char} {value : String} :
    Closes ('\'' :: body) value rest ↔ Quoted.read? '\'' body = some (value.toList, rest) := by
  constructor
  · intro h
    have hbody := h.append
    rw [toList_written_string, Quoted.text, List.cons_append, List.cons.injEq,
      List.append_assoc] at hbody
    rw [hbody.2]
    exact Quoted.read?_encode value.toList h.no_quote
  · intro h
    refine ⟨?_, Quoted.head?_of_read? h⟩
    rw [toList_written_string, Quoted.text_append_of_read? h]

theorem Closes.unique {text rest rest' : List Char} {value value' : String}
    (h : Closes text value rest) (h' : Closes text value' rest') : value = value' ∧ rest = rest' := by
  obtain ⟨body, rfl⟩ : ∃ body, text = '\'' :: body :=
    ⟨_, h.append.trans (by rw [toList_written_string, Quoted.text, List.cons_append])⟩
  have hread := closes_iff.1 h
  rw [closes_iff.1 h', Option.some.injEq, Prod.mk.injEq] at hread
  exact ⟨(String.toList_inj.1 hread.1).symm, hread.2.symm⟩

namespace Lexeme

theorem read_apostrophe {gap body : List Char} (h : Gap.Trivia ('\'' :: body) gap) :
    read (gap ++ '\'' :: body) = (ofString body).behind gap := by
  have hgap : Gap.read ('\'' :: body) = .clear [] ('\'' :: body) :=
    Gap.read_of_head (by decide) (by decide) (by decide) body
  rw [read_append_of_gap (Gap.read_append_of_trivia h), (read_of_clear hgap).1, front,
    ofChar_apostrophe]
  rfl

theorem ofString_of_closes {body rest : List Char} {value : String}
    (h : Closes ('\'' :: body) value rest) :
    ofString body
      = ⟨[], (Literal.string value).written.toList, rest, .token (.literal (.string value))⟩ := by
  rw [ofString, closes_iff.1 h, toList_written_string]
  simp

theorem ofString_of_not_closes {body : List Char}
    (h : ∀ value rest, ¬ Closes ('\'' :: body) value rest) :
    ofString body = ⟨[], '\'' :: body, [], .fault .unterminatedString⟩ := by
  have hread : Quoted.read? '\'' body = none := by
    rw [Option.eq_none_iff_forall_ne_some]
    rintro ⟨value, rest⟩ hread
    refine h (String.ofList value) rest (closes_iff.2 ?_)
    rw [hread, String.toList_ofList]
  rw [ofString, hread]

end Lexeme

namespace Cursor

variable {c : Cursor} {gap body rest : List Char} {value : String}

/-- Where a string is closed it is the next token, which covers just the string as written. -/
theorem Consistent.next_of_closes (hc : c.Consistent) (hahead : c.ahead = gap ++ '\'' :: body)
    (hgap : Gap.Trivia ('\'' :: body) gap) (h : Closes ('\'' :: body) value rest) :
    let start := c.position + Text.size gap
    let stop := start + Text.size (Literal.string value).written.toList
    c.next.1 = .token ⟨value, .literal (.string value), ⟨start, stop⟩, .ofOffset c.source start⟩ ∧
      c.next.2.position = stop ∧ c.next.2.ahead = rest := by
  have hread := Lexeme.read_apostrophe hgap
  rw [← hahead, Lexeme.ofString_of_closes h] at hread
  rw [hc.next_behind hahead hread rfl]
  simp only [Lexeme.item, position, Mark.spanTo, Mark.offset_after, TokenKind.textOf, and_self]

/-- Where no string is closed the next item is a fault that covers the rest of the source. -/
theorem Consistent.next_of_not_closes (hc : c.Consistent) (hahead : c.ahead = gap ++ '\'' :: body)
    (hgap : Gap.Trivia ('\'' :: body) gap) (h : ∀ value rest, ¬ Closes ('\'' :: body) value rest) :
    let start := c.position + Text.size gap
    let stop := Text.size c.source
    c.next.1 = .fault ⟨.unterminatedString, snippet ('\'' :: body), ⟨start, stop⟩,
        .ofOffset c.source start⟩ ∧
      c.next.2.position = stop ∧ c.next.2.ahead = [] := by
  have hread := Lexeme.read_apostrophe hgap
  rw [← hahead, Lexeme.ofString_of_not_closes h] at hread
  have hstop : c.position + Text.size gap + Text.size ('\'' :: body) = Text.size c.source := by
    obtain ⟨seen, hsource, hposition⟩ := hc.exists_seen
    rw [hsource, hahead, hposition, Text.size_append, Text.size_append, Nat.add_assoc]
  rw [hc.next_behind hahead hread rfl]
  simp only [Lexeme.item, position, Mark.spanTo, Mark.offset_after, ← hstop, and_self]

end Cursor

/-- Wherever a quote is next, behind some gap or none: if a string is closed there, what is read is
that string, from the quote to the end of what is written of it, and no other string is closed there;
if none is closed there, what is read is a fault from the quote to the end of the source. -/
theorem string_literals_exact {settings : Settings} {source gap body : List Char} {session : Session}
    (hsession : Session.Reachable settings source session)
    (hahead : session.cursor.ahead = gap ++ '\'' :: body)
    (hgap : Gap.Trivia ('\'' :: body) gap) :
    let start := session.position + Text.size gap
    let place := Location.ofOffset source start
    (∀ value rest, Closes ('\'' :: body) value rest →
      (∀ value' rest', Closes ('\'' :: body) value' rest' → value' = value ∧ rest' = rest) ∧
      let stop := start + Text.size (Literal.string value).written.toList
      ∃ after, session.perform .next
          = (.item (.token ⟨value, .literal (.string value), ⟨start, stop⟩, place⟩), [], after) ∧
        after.position = stop ∧ after.cursor.ahead = rest) ∧
    ((∀ value rest, ¬ Closes ('\'' :: body) value rest) →
      let stop := Text.size source
      ∃ after, session.perform .next
          = (.item (.fault ⟨.unterminatedString, snippet ('\'' :: body), ⟨start, stop⟩, place⟩), [],
            after) ∧
        after.position = stop ∧ after.cursor.ahead = []) := by
  obtain ⟨hconsistent, rfl⟩ := hsession.consistent
  intro start place
  have hperform : ∀ {item}, session.cursor.next.1 = item →
      session.perform .next = (.item item, [], session.moveTo session.cursor.next.2) := by
    rintro item rfl
    rfl
  constructor
  · intro value rest hcloses
    obtain ⟨hitem, hposition, hrest⟩ := hconsistent.next_of_closes hahead hgap hcloses
    exact ⟨fun _ _ hother => hother.unique hcloses, _, hperform hitem, hposition, hrest⟩
  · intro hnone
    obtain ⟨hitem, hposition, hrest⟩ := hconsistent.next_of_not_closes hahead hgap hnone
    exact ⟨_, hperform hitem, hposition, hrest⟩

/-- Four quotes behind a comment are a string, and three are none. -/
theorem string_literals_exact_runs :
    let closed : List Char := ['é', '/', '*', '*', '/', '\'', '\'', '\'', '\'']
    let unclosed : List Char := ['é', '/', '*', '*', '/', '\'', '\'', '\'']
    (∃ after, ((Session.ofSource .batch closed).perform (.seek 2)).2.2.perform .next
        = (.item (.token ⟨"'", .literal (.string "'"), ⟨6, 10⟩, ⟨1, 6⟩⟩), [], after) ∧
      after.position = 10 ∧ after.cursor.ahead = []) ∧
    ∃ after, ((Session.ofSource .batch unclosed).perform (.seek 2)).2.2.perform .next
        = (.item (.fault ⟨.unterminatedString, "\'\'\'", ⟨6, 9⟩, ⟨1, 6⟩⟩), [], after) ∧
      after.position = 9 ∧ after.cursor.ahead = [] := by
  intro closed unclosed
  have hcomment : ¬ ['*', '/'] <:+: ([] : List Char) := by decide
  have hgap : ∀ body, Gap.Trivia ('\'' :: body) ['/', '*', '*', '/'] :=
    fun body => .block hcomment .nil
  have hahead_closed : ((Session.ofSource .batch closed).perform (.seek 2)).2.2.cursor.ahead
      = ['/', '*', '*', '/'] ++ '\'' :: ['\'', '\'', '\''] := by decide
  have hahead_unclosed : ((Session.ofSource .batch unclosed).perform (.seek 2)).2.2.cursor.ahead
      = ['/', '*', '*', '/'] ++ '\'' :: ['\'', '\''] := by decide
  have hcloses : Closes ['\'', '\'', '\'', '\''] "'" [] := ⟨by decide, by decide⟩
  have hnone : ∀ value rest, ¬ Closes ['\'', '\'', '\''] value rest := by
    intro value rest h
    have hread := closes_iff.1 h
    rw [show Quoted.read? '\'' ['\'', '\''] = none by decide] at hread
    cases hread
  exact ⟨((string_literals_exact (.step .start (.seek 2)) hahead_closed (hgap _)).1 _ _ hcloses).2,
    (string_literals_exact (.step .start (.seek 2)) hahead_unclosed (hgap _)).2 hnone⟩

end SqlScan
