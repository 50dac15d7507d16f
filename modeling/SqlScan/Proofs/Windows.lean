import SqlScan.Proofs.Places
import SqlScan.Proofs.Respacing
import SqlScan.Proofs.Resumption

/-!
# Parts cut out at tokens

What stands behind a token is looked at before the token is done, so a part of a source is read as it
was in the source only if the cut does not show. It does not show behind a token: a text cut off
behind a lexeme further on stands for the whole text, because the word that a dotted name looks at
is a lexeme of its own if the name does not take it. So tokens in a row are read again from the part
of the source that they cover.
-/

namespace SqlScan

open Text (LooksLike StandsFor)

/-! ### Texts cut off behind a lexeme -/

theorem Text.StandsFor.of_head {c : Char} (hstart : Word.isStart c = false) (hdot : c ≠ '.')
    (cs cs' : List Char) : StandsFor (c :: cs) (c :: cs') where
  head _ hd := .inr hd
  word d hd hd_start := by
    rw [List.head?_cons, Option.mem_some_iff] at hd
    subst hd
    rw [hstart] at hd_start
    cases hd_start
  dot after' h := absurd (List.cons.inj h).1 hdot

namespace Lexeme

variable {rest : List Char}

/-- A reserved word is a lexeme of its own. -/
theorem read_reserved {c : Char} {cs : List Char} (hstart : Word.isStart c)
    (hreserved : Word.isReserved (c :: cs.takeWhile Word.isPart)) :
    (read (c :: cs)).passed = [] ∧ (read (c :: cs)).covered = c :: cs.takeWhile Word.isPart ∧
      (read (c :: cs)).rest = cs.dropWhile Word.isPart := by
  obtain ⟨hblank, hline, hblock⟩ := Word.not_gap_of_isStart hstart
  rw [(read_of_clear (Gap.read_of_head hblank hline hblock cs)).1, front, ofChar_start hstart]
  unfold ofWord
  split
  · exact ⟨rfl, rfl, rfl⟩
  · split
    · exact ⟨rfl, rfl, rfl⟩
    · rename_i hliteral _ hkeyword
      simp [Word.isReserved, hliteral, hkeyword] at hreserved

theorem takeWhile_of_reserved {c : Char} {cs : List Char} (hstart : Word.isStart c)
    (hrest : StandsFor (read (c :: cs)).rest rest)
    (hreserved : Word.isReserved ((c :: cs).takeWhile Word.isPart)) :
    ((read (c :: cs)).passed ++ (read (c :: cs)).covered ++ rest).takeWhile Word.isPart
      = (c :: cs).takeWhile Word.isPart := by
  have hword := List.takeWhile_cons_of_pos (l := cs) (Word.isPart_of_isStart hstart)
  rw [hword] at hreserved ⊢
  obtain ⟨hpassed, hcovered, hbehind⟩ := read_reserved hstart hreserved
  rw [hbehind] at hrest
  rw [hpassed, hcovered, List.nil_append, ← hword]
  have hparts : ∀ d ∈ (c :: cs).takeWhile Word.isPart, Word.isPart d :=
    fun d hd => List.mem_takeWhile_imp hd
  have hstop := hrest.head_of (fun d hd => Text.isPart_of_isBlank hd) (Text.head_dropWhile _ cs)
  exact (Text.span_run hparts hstop).1

theorem read_dot (cs : List Char) :
    read ('.' :: cs) = ⟨[], ['.'], cs, .token (.delimiter .dot)⟩ := by
  have hclear := Gap.read_of_head (c := '.') (by decide) (by decide) (by decide) cs
  rw [(read_of_clear hclear).1]
  rfl

/-- A text stands for itself with another rest behind its first lexeme that stands for the rest. -/
theorem standsFor_of_rest {text : List Char} (hcovered : (read text).covered ≠ [])
    (hrest : StandsFor (read text).rest rest) :
    StandsFor text ((read text).passed ++ (read text).covered ++ rest) := by
  -- both texts begin with the same character, since what the lexeme takes is not nothing
  obtain ⟨c, cs, cs', rfl, htext⟩ : ∃ c cs cs', text = c :: cs ∧
      (read text).passed ++ (read text).covered ++ rest = c :: cs' := by
    have hsource := source_read text
    rw [source] at hsource
    cases htaken : (read text).passed ++ (read text).covered with
    | nil => exact absurd (List.append_eq_nil_iff.1 htaken).2 hcovered
    | cons c more =>
      rw [htaken] at hsource
      exact ⟨c, more ++ (read text).rest, more ++ rest, hsource.symm, rfl⟩
  by_cases hdot : c = '.'
  · subst hdot
    rw [read_dot] at hrest ⊢
    refine ⟨⟨fun d hd => .inr hd, fun d hd hstart => ?_⟩, fun after' h => ?_⟩
    · rw [← Option.some.inj hd] at hstart
      exact absurd hstart (by decide)
    · exact ⟨cs, rfl, (List.cons.inj h).2 ▸ hrest.toLooksLike⟩
  by_cases hstart : Word.isStart c
  · refine ⟨⟨fun d hd => ?_, fun _ _ _ => takeWhile_of_reserved hstart hrest⟩, fun after' h => ?_⟩
    · rw [htext] at hd
      exact .inr hd
    · rw [htext] at h
      exact absurd (List.cons.inj h).1 hdot
  · rw [htext]
    exact .of_head (Bool.not_eq_true _ ▸ hstart) hdot cs cs'

end Lexeme

/-! ### Tokens in a row -/

/-- What a token says, and its span some bytes further on. -/
def Token.seenFrom (origin : Nat) (t : Token) : (TokenKind × String) × Span :=
  (t.content, t.span.shift origin)

namespace Cursor

variable {c d e : Cursor} {rest : List Char} {t : Token} {a b : Nat}

/-- A token is read again from the text that it takes, at whatever mark. -/
theorem next_of_cut (ht : c.next.1 = .token t) (hend : t.isEndOfFile = false)
    (hrest : StandsFor c.next.2.ahead rest) (hahead : e.ahead = c.passed ++ c.covered ++ rest)
    (hplace : e.position + a = c.position + b) :
    ∃ u, e.next.1 = .token u ∧ u.seenFrom a = t.seenFrom b ∧ e.next.2.ahead = rest ∧
      e.next.2.position + a = c.next.2.position + b := by
  have hclosed : c.next.1.Closed := by
    rw [ht]
    exact hend
  have hread := (Lexeme.read_before (closed_of_next hclosed) hrest).1
  have hahead : e.ahead = (Lexeme.read c.ahead).passed ++ (Lexeme.read c.ahead).covered ++ rest :=
    hahead
  rw [← hahead] at hread
  have hpassed : e.passed = c.passed := by rw [passed, hread]; rfl
  have hcovered : e.covered = c.covered := by rw [covered, hread]; rfl
  obtain ⟨hcontent, htext⟩ := content_of_next ht
  have hu : e.next.1 = .token ⟨t.text, t.kind, e.next.1.span, e.next.1.location⟩ := by
    rw [htext]
    simp only [next, hread, Lexeme.before, Lexeme.item, hcontent]
    rfl
  have hstart := start_next e
  have hstop := position_next e
  have hstart_c := start_next c
  have hstop_c := position_next c
  rw [hpassed] at hstart
  rw [hcovered] at hstop
  refine ⟨_, hu, ?_, ?_, by omega⟩
  · have hspan : t.span = c.next.1.span := by rw [ht]; rfl
    have hstop_e := stop_next e
    have hstop_t := stop_next c
    rw [Token.seenFrom, Token.seenFrom, Span.shift, Span.shift, hspan]
    dsimp only
    rw [show e.next.1.span.start + a = c.next.1.span.start + b by omega,
      show e.next.1.span.stop + a = c.next.1.span.stop + b by omega]
    rfl
  · simp only [next, hread, Lexeme.before]

/-- Tokens in a row are read again from the text that they take, cut off behind the last. -/
theorem Reads.of_cut {tokens : List Token} (h : Reads c (tokens.map .token) d)
    (hend : ∀ t ∈ tokens, t.isEndOfFile = false) (hrest : StandsFor d.ahead rest) :
    ∃ text, c.ahead = text ++ d.ahead ∧ StandsFor c.ahead (text ++ rest) ∧
      ∀ (e : Cursor) (a b : Nat), e.ahead = text ++ rest → e.position + a = c.position + b →
        ∃ (again : List Token) (last : Cursor), Reads e (again.map .token) last ∧
          last.ahead = rest ∧ (∀ t ∈ again, t.isEndOfFile = false) ∧
          again.map (Token.seenFrom a) = tokens.map (Token.seenFrom b) := by
  induction tokens generalizing c with
  | nil =>
    cases h
    exact ⟨[], rfl, hrest, fun e a b he _ => ⟨[], e, .stop e, he, by simp, rfl⟩⟩
  | cons t ts ih =>
    obtain ⟨ht, h⟩ := h.of_cons
    have htend := hend t List.mem_cons_self
    obtain ⟨text, htext, hstands, hagain⟩ := ih h fun u hu => hend u (List.mem_cons_of_mem t hu)
    have hcovered : c.covered ≠ [] := by
      apply Lexeme.covered_read_ne_nil
      rw [(content_of_next ht).1]
      intro hkind
      rw [Token.isEndOfFile, (Content.token.inj hkind)] at htend
      cases htend
    refine ⟨c.passed ++ c.covered ++ text, ?_, ?_, ?_⟩
    · rw [List.append_assoc, ← htext]
      exact ahead_eq c
    · rw [List.append_assoc]
      exact Lexeme.standsFor_of_rest hcovered hstands
    · intro e a b he hplace
      rw [List.append_assoc] at he
      obtain ⟨u, hu, hsame, hu_ahead, hu_place⟩ := next_of_cut ht htend hstands he hplace
      obtain ⟨again, last, hreads, hlast, hnone, hall⟩ := hagain e.next.2 a b hu_ahead hu_place
      refine ⟨u :: again, last, ?_, hlast, ?_, ?_⟩
      · rw [List.map_cons, ← hu]
        exact .step hreads
      · intro v hv
        rcases List.mem_cons.1 hv with rfl | hv
        · have hkind : v.kind = t.kind := congrArg (fun s => s.1.1) hsame
          rw [Token.isEndOfFile, hkind]
          exact htend
        · exact hnone v hv
      · rw [List.map_cons, List.map_cons, hsame, hall]

/-- Tokens read in turn are the tokens of the text from where the first begins to where reading has
led, and behind them there is only the end. -/
theorem Reads.tokenize_part {ts : List Token} (hc : c.Consistent)
    (h : Reads c ((t :: ts).map .token) d) (hend : ∀ u ∈ t :: ts, u.isEndOfFile = false) :
    ∃ part again last, (Span.mk t.span.start d.position).slice? c.source = some part ∧
      (tokenize .failFast part).answer = .ok ⟨again ++ [last], []⟩ ∧ last.isEndOfFile ∧
      again.map (Token.seenFrom t.span.start) = (t :: ts).map (Token.seenFrom 0) := by
  obtain ⟨ht, -⟩ := h.of_cons
  have hclosed : c.next.1.Closed := by
    rw [ht]
    exact hend t List.mem_cons_self
  have hstart : t.span.start = (c.beyond c.passed (c.covered ++ c.next.2.ahead)).position := by
    have hstart := start_next c
    rw [ht, ← position_beyond c c.passed (c.covered ++ c.next.2.ahead)] at hstart
    exact hstart
  -- reading from where the first token begins needs no gap in front of it
  have hm := hc.beyond ((ahead_eq c).trans (List.append_assoc _ _ _))
  have hreads := h.of_next_eq (next_beyond_passed (.inr hclosed)) (by simp)
  have hm_source : (c.beyond c.passed (c.covered ++ c.next.2.ahead)).source = c.source := rfl
  generalize c.beyond c.passed (c.covered ++ c.next.2.ahead) = m at hstart hm hreads hm_source
  obtain ⟨text, htext, -, hagain⟩ := hreads.of_cut hend (.of_apart .nil _)
  obtain ⟨again, last, hpart, hnil, hnone, hsame⟩ :=
    hagain (ofSource text) t.span.start 0 (List.append_nil text).symm (by
      rw [hstart]
      exact Nat.zero_add _)
  obtain ⟨final, hanswer, hfinal⟩ := hpart.answer_eq hnone hnil
  refine ⟨text, again, final, ?_, hanswer, hfinal, hsame⟩
  obtain ⟨seen, hsource, hposition⟩ := hm.exists_seen
  obtain ⟨seen', hsource', hposition'⟩ := (hreads.consistent hm).exists_seen
  rw [htext, ← List.append_assoc, ← hreads.source_eq, hsource'] at hsource
  have hseen : seen' = seen ++ text := List.append_cancel_right hsource
  rw [Span.slice?, hstart, hposition, hposition', ← hm_source, ← hreads.source_eq, hsource', hseen]
  exact Text.slice?_append seen text d.ahead

end Cursor

/-- Tokens of a source in a row are read again from the part of the source from the first of them to
the last, as they are and as far behind each other; behind them there is only the end. -/
theorem tokenize_window {source : List Char} {stream : TokenStream}
    (h : (tokenize .failFast source).answer = .ok stream) {i j : Nat} (hij : i ≤ j)
    (hj : j + 1 < stream.tokens.length) :
    ∃ part again before last,
      (Span.mk stream.tokens[i].span.start stream.tokens[j].span.stop).slice? source = some part ∧
      (tokenize .failFast part).answer = .ok again ∧
      again.tokens = before ++ [last] ∧ last.isEndOfFile ∧
      before.map (Token.seenFrom stream.tokens[i].span.start) =
        ((stream.tokens.take (j + 1)).drop i).map fun t => (t.content, t.span) := by
  obtain ⟨tokens, last, d, htokens, -, hend, hreads⟩ := Cursor.reads_of_answer h
  have hsource := Cursor.consistent_ofSource source
  -- the window, by its first token and by its last
  have hfirst : (stream.tokens.take (j + 1)).drop i
      = stream.tokens[i] :: (stream.tokens.take (j + 1)).drop (i + 1) := by
    rw [List.drop_eq_getElem_cons (by rw [List.length_take]; omega), List.getElem_take]
  have hlast : (stream.tokens.take (j + 1)).drop i
      = (stream.tokens.take j).drop i ++ [stream.tokens[j]] := by
    rw [List.take_succ_eq_append_getElem (by omega),
      List.drop_append_of_le_length (by rw [List.length_take]; omega)]
  have hnone : ∀ t ∈ (stream.tokens.take (j + 1)).drop i, t.isEndOfFile = false := by
    intro t ht
    have ht := List.mem_of_mem_drop ht
    have hlength : j + 1 ≤ tokens.length := by
      rw [htokens, List.length_append, List.length_singleton] at hj
      omega
    rw [htokens, List.take_append_of_le_length hlength] at ht
    exact hend t (List.mem_of_mem_take ht)
  have hsplit : stream.tokens = stream.tokens.take i
      ++ ((stream.tokens.take (j + 1)).drop i ++ stream.tokens.drop (j + 1)) := by
    have htake : stream.tokens.take i = (stream.tokens.take (j + 1)).take i := by
      rw [List.take_take, Nat.min_eq_left (by omega)]
    rw [htake, ← List.append_assoc, List.take_append_drop, List.take_append_drop]
  rw [hsplit, List.map_append, List.map_append] at hreads
  obtain ⟨m, hbefore, hreads⟩ := hreads.split
  obtain ⟨e, hwindow, -⟩ := hreads.split
  have hstop : stream.tokens[j].span.stop = e.position := by
    have hwindow := hwindow
    rw [hlast, List.map_append] at hwindow
    exact hwindow.stop_last
  rw [hfirst] at hwindow hnone ⊢
  obtain ⟨part, again, final, hpart, hanswer, hfinal, hsame⟩ :=
    hwindow.tokenize_part (hbefore.consistent hsource) hnone
  rw [← hstop, hbefore.source_eq] at hpart
  exact ⟨part, _, again, final, hpart, hanswer, rfl, hfinal, hsame⟩

/-- A name and a dot stay apart where the reserved word behind the dot is cut off. -/
theorem tokenize_window_reserved :
    let source := ['é', ' ', 'a', '.', 'a', 'n', 'd', ' ', 'b']
    ∃ stream again, (tokenize .failFast source).answer = .ok stream ∧
      2 + 1 < stream.tokens.length ∧ (Span.mk 3 5).slice? source = some ['a', '.'] ∧
      (tokenize .failFast ['a', '.']).answer = .ok again ∧ again.tokens.length = 3 := by
  intro source
  cases h : (tokenize .failFast source).answer with
  | error fault =>
    have haccepted : (tokenize .failFast source).answer.isOk := by decide +kernel
    rw [h] at haccepted
    cases haccepted
  | ok stream =>
    have htokens : (tokenize .failFast source).answer.map
        (fun stream => stream.tokens.map Token.span)
          = .ok [⟨0, 2⟩, ⟨3, 4⟩, ⟨4, 5⟩, ⟨5, 8⟩, ⟨9, 10⟩, ⟨10, 10⟩] := by
      decide +kernel
    rw [h] at htokens
    have hspans : stream.tokens.map Token.span
        = [⟨0, 2⟩, ⟨3, 4⟩, ⟨4, 5⟩, ⟨5, 8⟩, ⟨9, 10⟩, ⟨10, 10⟩] := Except.ok.inj htokens
    have hlength : 2 + 1 < stream.tokens.length := by
      rw [← List.length_map Token.span, hspans]
      decide
    obtain ⟨part, again, before, last, hpart, hagain, hbehind, -, hsame⟩ :=
      tokenize_window h (i := 1) (j := 2) (by decide) hlength
    have hstart : stream.tokens[1].span.start = 3 := by
      rw [← List.getElem_map Token.span (h := by simp [hspans])]
      simp [hspans]
    have hstop : stream.tokens[2].span.stop = 5 := by
      rw [← List.getElem_map Token.span (h := by simp [hspans])]
      simp [hspans]
    have hslice : (Span.mk 3 5).slice? source = some ['a', '.'] := by decide
    rw [hstart, hstop, hslice] at hpart
    cases hpart
    refine ⟨stream, again, rfl, hlength, hslice, hagain, ?_⟩
    have hbefore := congrArg List.length hsame
    simp only [List.length_map, List.length_drop, List.length_take] at hbefore
    rw [hbehind, List.length_append, List.length_singleton]
    omega

end SqlScan
