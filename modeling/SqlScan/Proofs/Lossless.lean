import SqlScan.Proofs.Passes
import SqlScan.Proofs.Shapes
import SqlScan.Rendering

/-!
# Nothing is lost

A token is written as the text that it covers: its text is that text, except for a string literal,
which is written by quoting its value again, and for a delimiter, which has its text from a table.
So the slice of the source at a token's span is the token as written, in every pass. What a token
passes over is a gap, so in a pass without faults the gaps with the tokens written between them
give the source.
-/

namespace SqlScan

/-! ### Readings -/

/-- Before each token stands trivia only: before the first from byte `start` on, before any other
from the end of the token before it on. -/
def TriviaBefore (source : List Char) (start : Nat) : List Token → Prop
  | [] => True
  | t :: ts => Gap.Between source start t.span.start ∧ TriviaBefore source t.span.stop ts

namespace Cursor

variable {c d : Cursor} {items : List Item} {tokens : List Token} {t : Token}

theorem written_next (h : c.next.1 = .token t) : t.written.toList = c.covered := by
  obtain ⟨hcontent, htext⟩ := content_of_next h
  have hcovered : t.kind.WrittenAs c.covered := (Lexeme.trivia_passed_of_token hcontent).2
  have hwritten := TokenKind.written_of_writtenAs hcovered t.span t.location
  rw [← htext] at hwritten
  exact hwritten

theorem stop_token_next (h : c.next.1 = .token t) : t.span.stop = c.next.2.position := by
  rw [← stop_next, h]
  rfl

theorem slice?_next (hc : c.Consistent) (h : c.next.1 = .token t) :
    t.span.slice? c.source = some t.written.toList := by
  obtain ⟨seen, hsource, -, hstart, hstop, -, -⟩ := hc.split
  rw [h, Item.span] at hstart hstop
  rw [Span.slice?, hstart, hstop, hsource, written_next h]
  exact Text.slice?_append (seen ++ c.passed) c.covered c.next.2.ahead

theorem between_next (hc : c.Consistent) (h : c.next.1 = .token t) :
    Gap.Between c.source c.position t.span.start := by
  have hbetween := hc.between_iff.2 (Lexeme.trivia_passed_of_token (content_of_next h).1).1
  rwa [h] at hbetween

theorem Reads.slice?_token (h : Reads c items d) (hc : c.Consistent) (ht : .token t ∈ items) :
    t.span.slice? c.source = some t.written.toList := by
  obtain ⟨m, hm, hsource, hnext⟩ := h.exists_next hc ht
  rw [← hsource]
  exact slice?_next hm hnext

theorem Reads.triviaBefore (h : Reads c (tokens.map .token) d) (hc : c.Consistent) :
    TriviaBefore c.source c.position tokens := by
  induction tokens generalizing c with
  | nil => trivial
  | cons t ts ih =>
    obtain ⟨htoken, hrest⟩ := h.of_cons
    have hstop := stop_token_next htoken
    refine ⟨between_next hc htoken, ?_⟩
    rw [hstop]
    exact ih hrest hc.next

/-- Tokens read with nothing but trivia between them are enough to write the text ahead again. -/
theorem Reads.rebuiltFrom_eq (h : Reads c (tokens.map .token) d) (hc : c.Consistent) :
    rebuiltFrom c.source c.position tokens = c.ahead := by
  induction tokens generalizing c with
  | nil =>
    obtain ⟨seen, hsource, hposition⟩ := hc.exists_seen
    have hslice := Text.slice?_append seen c.ahead []
    rw [List.append_nil] at hslice
    rw [rebuiltFrom, hposition, hsource, hslice]
    rfl
  | cons t ts ih =>
    obtain ⟨htoken, hrest⟩ := h.of_cons
    have hstop := stop_token_next htoken
    obtain ⟨seen, hsource, hposition, hstart, -⟩ := hc.split
    rw [htoken, Item.span] at hstart
    have hslice := Text.slice?_append seen c.passed (c.covered ++ c.next.2.ahead)
    rw [← List.append_assoc, ← hsource, ← hposition, ← hstart] at hslice
    rw [rebuiltFrom, hslice, hstop, written_next htoken, ahead_eq c, ← ih hrest hc.next]
    rfl

end Cursor

theorem Block.items_of_faults_eq_nil {b : Block} (h : b.faults = []) :
    b.items = b.tokens.map .token := by
  obtain ⟨items, full, cursor⟩ := b
  simp only [faults, tokens] at h ⊢
  induction items with
  | nil => rfl
  | cons item items ih =>
    cases item with
    | token t => exact congrArg (Item.token t :: ·) (ih h)
    | fault f => simp [Item.fault?] at h

/-! ### Passes -/

theorem slice?_endOfFile {c : Cursor} (hc : c.Consistent) :
    (c.mark.spanTo c.mark).slice? c.source = some [] := by
  obtain ⟨seen, hsource, hposition⟩ := hc.exists_seen
  have hslice := Text.slice?_append seen [] c.ahead
  rw [List.append_nil, ← hsource, ← hposition] at hslice
  exact hslice

theorem slice?_of_answer {s : Settings} {source : List Char} {stream : TokenStream}
    (h : (tokenize s source).answer = .ok stream) {t : Token} (ht : t ∈ stream.tokens) :
    t.span.slice? source = some t.written.toList := by
  have hsource := Cursor.consistent_ofSource source
  obtain ⟨items, c, hreads, hitem | rfl⟩ := mem_tokens_of_answer h ht
  · exact hreads.slice?_token hsource hitem
  · have hslice := slice?_endOfFile (hreads.consistent hsource)
    rw [hreads.source_eq] at hslice
    exact hslice

/-- In every pass the slice at a token's span is the token as written; in a pass that meets no
fault the gaps between the tokens are trivia, and written between the tokens they give the source. -/
theorem tokenize_lossless (source : List Char) :
    (∀ s stream, (tokenize s source).answer = .ok stream →
      ∀ t ∈ stream.tokens, t.span.slice? source = some t.written.toList) ∧
    ∀ limit stream, (tokenize ⟨.failFast, limit⟩ source).answer = .ok stream →
      TriviaBefore source 0 stream.tokens ∧ rebuilt source stream.tokens = source := by
  constructor
  · intro s stream h t ht
    exact slice?_of_answer h ht
  · intro limit stream h
    obtain ⟨hfaults, rfl⟩ := answer_failFast_eq_ok_iff.1 h
    have hsource := Cursor.consistent_ofSource source
    have hreads := Cursor.reads_block none (Cursor.ofSource source)
    rw [Block.items_of_faults_eq_nil hfaults] at hreads
    exact ⟨hreads.triviaBefore hsource, hreads.rebuiltFrom_eq hsource⟩

end SqlScan
