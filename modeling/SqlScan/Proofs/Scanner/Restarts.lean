import SqlScan.Proofs.Resumption
import SqlScan.Proofs.Scanner.Positions

/-!
# A scanner forgets how it got there

What a scanner does next is decided by the place that it has come to: a session has nothing but its cursor
and settings, and a place in a source is one cursor. So a scanner can be sent to any token of a source,
or to the end of the token before it, and reads the same tokens from there as a scanner that came to
them from the start.
-/

namespace SqlScan

open Cursor (Reads)

/-! ### A place in a source is one cursor -/

namespace Cursor

variable {c d e : Cursor} {tokens front behind : List Token} {token : Token}

theorem Consistent.ext_of_position (hc : c.Consistent) (hd : d.Consistent)
    (hsource : c.source = d.source) (hposition : c.position = d.position) : c = d := by
  obtain ⟨source, mark, ahead⟩ := c
  obtain ⟨source', mark', ahead'⟩ := d
  obtain ⟨seen, hparts, hmark⟩ := hc
  obtain ⟨seen', hparts', hmark'⟩ := hd
  dsimp only [position] at hsource hposition hparts hparts' hmark hmark'
  rw [hmark, hmark', Mark.origin_after_offset, Mark.origin_after_offset] at hposition
  rw [hsource, hparts'] at hparts
  obtain ⟨rfl, rfl⟩ := Text.append_inj_of_size hparts hposition.symm
  rw [hsource, hmark, hmark']

theorem Consistent.seek?_position (hd : d.Consistent) (hsource : c.source = d.source) :
    c.seek? d.position = some d := by
  obtain ⟨source, mark, ahead⟩ := d
  obtain ⟨seen, hparts, hmark⟩ := hd
  dsimp only at hsource hparts hmark
  have hcut := Text.cut?_append seen ahead
  rw [← hparts] at hcut
  rw [seek?, position, hmark, Mark.origin_after_offset, hsource, hcut, Option.map_some]

/-! ### The tokens from a place on -/

theorem strict_of_next_eq (h : c.next = d.next) : c.strict = d.strict := by
  rw [strict, strict, block_of_next_eq h]

/-- Where a token begins, and where the token before it ends, the tokens that a strict pass answered
begin again. -/
theorem exists_restart (hc : c.Consistent) (h : c.strict.answer = .ok (front ++ token :: behind))
    {offset : Nat} (hoffset : offset = token.span.start ∨
      ∃ before, front.getLast? = some before ∧ offset = before.span.stop) :
    ∃ d : Cursor, d.Consistent ∧ d.source = c.source ∧ d.position = offset ∧
      d.strict.answer = .ok (token :: behind) := by
  obtain ⟨-, hreads, opening, last, htokens, hlast, hopening⟩ := reads_of_strict_answer h
  rw [List.map_append] at hreads
  obtain ⟨m, hfront, hrest⟩ := hreads.split
  have hm := hfront.consistent hc
  have hnext : m.next.1 = .token token := hrest.of_cons.1
  have hanswer : m.strict.answer = .ok (token :: behind) := by
    obtain ⟨init, t, hinit⟩ : ∃ init t, token :: behind = init ++ [t] :=
      ⟨_, _, (List.dropLast_concat_getLast (List.cons_ne_nil token behind)).symm⟩
    rw [hinit, ← List.append_assoc] at htokens
    obtain ⟨rfl, hlast_eq⟩ := List.append_inj' htokens rfl
    obtain rfl := List.singleton_inj.1 hlast_eq
    rw [hinit, List.map_append] at hrest
    obtain ⟨k, hinit_reads, hend⟩ := hrest.split
    rw [hinit]
    exact hinit_reads.strict_answer (fun u hu => hopening u (List.mem_append_right _ hu))
      hend.of_cons.1 hlast
  rcases hoffset with rfl | ⟨before, hbefore, rfl⟩
  · have hclosed : m.next.1.isEnd ∨ m.next.1.Closed := by
      rw [hnext]
      cases htoken : token.isEndOfFile with
      | true => exact .inl htoken
      | false => exact .inr htoken
    have hahead : m.ahead = m.passed ++ (m.covered ++ m.next.2.ahead) := by
      rw [← List.append_assoc]
      exact m.ahead_eq
    have hstart := start_next m
    rw [hnext, Item.span] at hstart
    refine ⟨m.beyond m.passed (m.covered ++ m.next.2.ahead), hm.beyond hahead, hfront.source_eq, ?_,
      ?_⟩
    · rw [position_beyond, hstart]
    · rw [← strict_of_next_eq (next_beyond_passed hclosed), hanswer]
  · obtain ⟨opening, rfl⟩ := List.getLast?_eq_some_iff.1 hbefore
    rw [List.map_append] at hfront
    exact ⟨m, hm, hfront.source_eq, hfront.stop_last.symm, hanswer⟩

end Cursor

/-! ### Sessions -/

namespace Session

theorem settings_perform (x : Session) (step : Step) : (x.perform step).2.2.settings = x.settings := by
  cases step with
  | seek offset =>
    unfold perform
    dsimp only
    split <;> rfl
  | _ => rfl

theorem settings_trace (x : Session) (steps : List Step) : (x.trace steps).2.settings = x.settings := by
  induction steps generalizing x with
  | nil => rfl
  | cons step steps ih => exact (ih _).trans (x.settings_perform step)

/-- Sent to a place that tokens are read from, a session answers them and comes to the end. -/
theorem trace_seek_strict {x : Session} {d : Cursor} {tokens : List Token} (hd : d.Consistent)
    (hsource : x.cursor.source = d.source) (hanswer : d.strict.answer = .ok tokens) :
    ∃ log, (x.trace [.seek d.position, .strict]).1 =
      [⟨.moved true, [], d.position⟩, ⟨.tokens (.ok tokens), log, Text.size d.source⟩] := by
  have hmoved : x.perform (.seek d.position) = (.moved true, [], x.moveTo d) := by
    rw [perform, hd.seek?_position hsource]
  obtain ⟨hnil, hreads, -⟩ := Cursor.reads_of_strict_answer hanswer
  have hend := (hreads.consistent hd).position_of_nil hnil
  rw [hreads.source_eq] at hend
  refine ⟨d.strict.log, ?_⟩
  rw [← hanswer, ← hend, trace, hmoved]
  rfl

end Session

/-! ### Scanners -/

namespace Scanner

variable {settings : Settings} {source : List Char} {s : Scanner}

/-- Some steps from the start of a source lead to the scanner. -/
def ReachedIn (settings : Settings) (source : List Char) (s : Scanner) : Prop :=
  ∃ steps outcomes, (ofSource settings source).trace steps = some (outcomes, s)

theorem ReachedIn.exists_follows (h : s.ReachedIn settings source) :
    ∃ x : Session, s.Follows x ∧ x.settings = settings ∧ x.cursor.source = source := by
  obtain ⟨steps, outcomes, htrace⟩ := h
  have hstart := Cursor.consistent_ofSource source
  refine ⟨_, ((follows_ofSource settings source).of_trace htrace).2, ?_, ?_⟩
  · exact Session.settings_trace _ steps
  · exact (Session.consistent_trace hstart steps).2

/-- To answer tokens a scanner has to count over all of the source. -/
theorem exists_strict_iff {tokens : List Token} :
    (∃ log last, (ofSource settings source).strict = some (.ok tokens, log, last)) ↔
      Location.origin.counts source ∧ (Cursor.ofSource source).strict.answer = .ok tokens := by
  have hgoes := (standsAt_ofSource settings source).strict
  constructor
  · rintro ⟨log, last, h⟩
    obtain ⟨u, -, heq⟩ := hgoes.of_eq_some h
    have hanswer : (Cursor.ofSource source).strict.answer = .ok tokens := (Prod.mk.inj heq).1.symm
    obtain ⟨t, hstrict⟩ := hgoes.of_ahead_eq_nil (Cursor.reads_of_strict_answer hanswer).1
    rw [h] at hstrict
    exact ⟨(Location.checked_eq_some_iff.1 hstrict.symm).1, hanswer⟩
  · rintro ⟨hcounts, hanswer⟩
    obtain ⟨t, hstrict⟩ := hgoes.of_ahead_eq_nil (Cursor.reads_of_strict_answer hanswer).1
    rw [Location.checked_of_counts hcounts, hanswer] at hstrict
    exact ⟨_, t, hstrict⟩

/-- Seeking fails at an offset that is no character boundary, and then does nothing. -/
theorem perform_seek_eq_false_iff {offset : Nat} {log : List Event} {t : Scanner} :
    s.perform (.seek offset) = some (.moved false, log, t) ↔
      Text.cut? offset s.source = none ∧ log = [] ∧ t = s := by
  rw [perform]
  cases hcut : Text.cut? offset s.source with
  | none =>
    rw [seek_of_cut?_eq_none hcut]
    show some (Reply.moved false, ([] : List Event), s) = _ ↔ _
    simp [eq_comm]
  | some parts =>
    obtain ⟨hsource, rfl⟩ := Text.append_of_cut? hcut
    rw [s.seek_append hsource.symm]
    constructor
    · intro h
      obtain ⟨found, hfound, heq⟩ := Option.bind_eq_some_iff.1 h
      obtain ⟨-, rfl⟩ := Location.checked_eq_some_iff.1 hfound
      cases heq
    · rintro ⟨h, -⟩
      cases h

/-- Scanners at one place of a source show the same from there on. -/
theorem ReachedIn.trace_congr {t : Scanner} (hs : s.ReachedIn settings source)
    (ht : t.ReachedIn settings source) (hposition : s.position = t.position) (steps : List Step) :
    (s.trace steps).map Prod.fst = (t.trace steps).map Prod.fst := by
  obtain ⟨⟨xs, c⟩, hsx, rfl, hx_source⟩ := hs.exists_follows
  obtain ⟨⟨ys, d⟩, hty, rfl, hy_source⟩ := ht.exists_follows
  obtain rfl : c = d := by
    apply hsx.stands.consistent.ext_of_position hty.stands.consistent
    · exact hx_source.trans hy_source.symm
    · exact hsx.position_eq.symm.trans (hposition.trans hty.position_eq)
  exact hsx.trace_congr hty steps

/-- In a source that can be counted a scanner shows what a session shows that was put at its place. -/
theorem ReachedIn.exists_cursor (h : s.ReachedIn settings source) :
    ∃ c, (Cursor.ofSource source).seek? s.position = some c ∧
      (Location.origin.counts source → ∀ steps,
        (s.trace steps).map Prod.fst = some (Session.trace ⟨settings, c⟩ steps).1) := by
  obtain ⟨⟨_, c⟩, hsx, rfl, hsource⟩ := h.exists_follows
  refine ⟨c, ?_, ?_⟩
  · rw [hsx.position_eq]
    exact hsx.stands.consistent.seek?_position hsource.symm
  · intro hcounts steps
    rw [← hsource] at hcounts
    obtain ⟨t, -, htrace⟩ := hsx.trace_eq_some hcounts steps
    rw [htrace, Option.map_some]

/-- Sent to where a token of an accepted source begins, or to where the one before it ends, a scanner
answers the tokens from there on. -/
theorem ReachedIn.exists_trace_seek_strict {tokens : List Token} {token : Token} {i offset : Nat}
    (h : s.ReachedIn settings source) (hcounts : Location.origin.counts source)
    (hanswer : (Cursor.ofSource source).strict.answer = .ok tokens) (htoken : tokens[i]? = some token)
    (hoffset : offset = token.span.start ∨
      ∃ before, 0 < i ∧ tokens[i - 1]? = some before ∧ offset = before.span.stop) :
    ∃ log t, s.trace [.seek offset, .strict] = some ([⟨.moved true, [], offset⟩,
      ⟨.tokens (.ok (tokens.drop i)), log, Text.size source⟩], t) := by
  obtain ⟨x, hsx, -, hsource⟩ := h.exists_follows
  obtain ⟨hi, rfl⟩ := List.getElem?_eq_some_iff.1 htoken
  have hdrop := List.drop_eq_getElem_cons hi
  have hlast : offset = tokens[i].span.start ∨
      ∃ before, (tokens.take i).getLast? = some before ∧ offset = before.span.stop := by
    rcases hoffset with hoffset | ⟨before, hpos, hbefore, hoffset⟩
    · exact .inl hoffset
    · refine .inr ⟨before, ?_, hoffset⟩
      rw [List.getLast?_take, if_neg (Nat.ne_of_gt hpos), hbefore]
      rfl
  rw [← List.take_append_drop i tokens, hdrop] at hanswer
  obtain ⟨d, hd, hd_source, rfl, hd_answer⟩ :=
    Cursor.exists_restart (Cursor.consistent_ofSource source) hanswer hlast
  have hd_source : d.source = source := hd_source
  obtain ⟨log, hsession⟩ := Session.trace_seek_strict hd (hsource.trans hd_source.symm) hd_answer
  rw [← hsource] at hcounts
  obtain ⟨t, -, hscanner⟩ := hsx.trace_eq_some hcounts [.seek d.position, .strict]
  refine ⟨log, t, ?_⟩
  rw [hscanner, hsession, hdrop, hd_source]

end Scanner

/-- What a scanner does is decided by its place in the source, and it is what a session does there. Sent
from anywhere to where a token of an accepted source begins, or to where the token before it ends, it
answers the tokens from there on. Sent to an offset that is no place it stays as it is. -/
theorem scanner_restarts (settings : Settings) (source : List Char) :
    (∀ s t : Scanner, s.ReachedIn settings source → t.ReachedIn settings source →
      s.position = t.position → ∀ steps,
        (s.trace steps).map Prod.fst = (t.trace steps).map Prod.fst) ∧
    (∀ s : Scanner, s.ReachedIn settings source →
      ∃ c, (Cursor.ofSource source).seek? s.position = some c ∧
        (Location.origin.counts source → ∀ steps,
          (s.trace steps).map Prod.fst = some (Session.trace ⟨settings, c⟩ steps).1)) ∧
    (∀ tokens log last, (Scanner.ofSource settings source).strict = some (.ok tokens, log, last) →
      ∀ steps, ∃ outcomes s, (Scanner.ofSource settings source).trace steps = some (outcomes, s) ∧
        ∀ i token, tokens[i]? = some token → ∀ offset,
          (offset = token.span.start ∨
            ∃ before, 0 < i ∧ tokens[i - 1]? = some before ∧ offset = before.span.stop) →
          ∃ log t, s.trace [.seek offset, .strict] =
            some ([⟨.moved true, [], offset⟩,
              ⟨.tokens (.ok (tokens.drop i)), log, Text.size source⟩], t)) ∧
    ∀ s : Scanner, s.ReachedIn settings source → ∀ offset log t,
      s.perform (.seek offset) = some (.moved false, log, t) ↔
        Text.cut? offset source = none ∧ log = [] ∧ t = s := by
  refine ⟨?_, ?_, ?_, ?_⟩
  · intro s t hs ht hposition steps
    exact hs.trace_congr ht hposition steps
  · intro s hs
    exact hs.exists_cursor
  · intro tokens log last hstrict steps
    obtain ⟨hcounts, hanswer⟩ := Scanner.exists_strict_iff.1 ⟨log, last, hstrict⟩
    obtain ⟨s, -, htrace⟩ := (Scanner.follows_ofSource settings source).trace_eq_some hcounts steps
    have hs : s.ReachedIn settings source := ⟨steps, _, htrace⟩
    exact ⟨_, s, htrace, fun i token htoken offset hoffset =>
      hs.exists_trace_seek_strict hcounts hanswer htoken hoffset⟩
  · intro s hs offset log t
    obtain ⟨x, hsx, -, hx_source⟩ := hs.exists_follows
    rw [← hx_source, ← hsx.stands.source]
    exact Scanner.perform_seek_eq_false_iff

/-- From inside a comment a scanner comes back to the end of the token before it. -/
theorem scanner_restarts_comment :
    let source := "a /*é*/ b".toList
    ∃ tokens log last outcomes s, tokens.length = 3 ∧
      (Scanner.ofSource .batch source).strict = some (.ok tokens, log, last) ∧
      (Scanner.ofSource .batch source).trace [.next, .seek 5, .seek 4] = some (outcomes, s) ∧
      ∃ log t, s.trace [.seek 1, .strict] =
        some ([⟨.moved true, [], 1⟩, ⟨.tokens (.ok (tokens.drop 1)), log, 10⟩], t) := by
  intro source
  have hcounts : Location.origin.counts source := by decide
  have hspans : (Cursor.ofSource source).strict.answer.map (fun tokens => tokens.map Token.span)
      = .ok [⟨0, 1⟩, ⟨9, 10⟩, ⟨10, 10⟩] := by
    decide +kernel
  cases hanswer : (Cursor.ofSource source).strict.answer with
  | error fault =>
    rw [hanswer] at hspans
    cases hspans
  | ok tokens =>
    rw [hanswer] at hspans
    have hspans : tokens.map Token.span = [⟨0, 1⟩, ⟨9, 10⟩, ⟨10, 10⟩] := Except.ok.inj hspans
    have hlength : tokens.length = 3 := by rw [← List.length_map Token.span, hspans]; rfl
    have hstrict : ∃ log last,
        (Scanner.ofSource .batch source).strict = some (.ok tokens, log, last) :=
      Scanner.exists_strict_iff.2 ⟨hcounts, hanswer⟩
    obtain ⟨log, last, hstrict⟩ := hstrict
    obtain ⟨outcomes, s, htrace, hrestart⟩ :=
      (scanner_restarts .batch source).2.2.1 tokens log last hstrict [.next, .seek 5, .seek 4]
    refine ⟨tokens, log, last, outcomes, s, hlength, hstrict, htrace, ?_⟩
    apply hrestart 1 tokens[1] (List.getElem?_eq_getElem _) 1
    refine .inr ⟨tokens[0], Nat.one_pos, List.getElem?_eq_getElem _, ?_⟩
    have hfirst : (tokens.map Token.span)[0]? = some ⟨0, 1⟩ := by rw [hspans]; rfl
    rw [List.getElem?_map, List.getElem?_eq_getElem (by omega)] at hfirst
    exact (congrArg Span.stop (Option.some.inj hfirst)).symm

end SqlScan
