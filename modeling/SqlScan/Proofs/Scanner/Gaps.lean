import SqlScan.Proofs.Scanner.Restarts

/-!
# What is skipped in front of a token

Wherever a scanner has come to, it skips the trivia ahead and all of it, and breaks off at a block
comment that nothing closes: what it does is told by the grammar of trivia alone, in both directions.
So skipping again skips nothing, and a source has no token in it exactly if it is trivia.
-/

namespace SqlScan

/-- The fault of a comment that nothing closes, behind some text of the source. -/
def Gap.fault (source before comment : List Char) : Fault :=
  ⟨.unterminatedComment, snippet comment, ⟨Text.size before, Text.size source⟩,
    Location.origin.after before⟩

theorem Gap.fault?_unclosed {source seen gap comment : List Char}
    (hsource : source = seen ++ (gap ++ comment)) :
    (Ending.unclosed gap comment).fault? (Mark.origin.after seen)
      = some (fault source (seen ++ gap) comment) := by
  rw [Ending.fault?, ← Mark.after_append, ← Mark.after_append, Mark.spanTo, Mark.origin_after_offset,
    Mark.origin_after_offset, Mark.location_after, List.append_assoc, ← hsource]
  rfl

/-! ### Lexemes -/

namespace Lexeme

variable {text : List Char}

/-- Behind a gap there is no comment that could be open. -/
theorem content_front_ne_comment (text : List Char) :
    (front text).content ≠ .fault .unterminatedComment := by
  refine content_front_cases (motive := fun content => content ≠ .fault .unterminatedComment)
    nofun (fun _ => nofun) (fun _ => nofun) (fun _ => nofun) (fun _ => nofun) nofun (fun _ => nofun)
    (fun _ => nofun) ?numeral nofun (fun _ => nofun) text
  case numeral =>
    intro n
    unfold Numeral.content
    split <;> exact nofun

theorem read_of_breaksOff {gap comment : List Char} (h : Gap.BreaksOff text gap comment) :
    read text = ⟨gap, comment, [], .fault .unterminatedComment⟩ := by
  rw [read, Gap.read_eq_unclosed_iff.2 h]

theorem exists_breaksOff (h : (read text).content = .fault .unterminatedComment) :
    ∃ gap comment, Gap.BreaksOff text gap comment := by
  cases hgap : Gap.read text with
  | clear gap rest =>
    rw [(read_of_clear hgap).1] at h
    exact absurd h (content_front_ne_comment rest)
  | unclosed gap comment => exact ⟨gap, comment, Gap.read_eq_unclosed_iff.1 hgap⟩

/-- There is nothing but the end of the source behind trivia, and only behind trivia. -/
theorem content_read_eq_endOfFile_iff :
    (read text).content = .token .endOfFile ↔ Gap.Trivia [] text := by
  constructor
  · intro h
    obtain ⟨htrivia, hcovered⟩ := trivia_passed_of_token h
    have hcovered : (read text).covered = [] := hcovered
    have hsource := source_read text
    rw [source, hcovered, rest_of_endOfFile h, List.append_nil, List.append_nil] at hsource
    rwa [hcovered, rest_of_endOfFile h, hsource] at htrivia
  · intro h
    have hends : Gap.Ends text text [] := ⟨(List.append_nil text).symm, h, by simp, by simp, by simp⟩
    rw [(read_of_clear (Gap.read_eq_clear_iff.2 hends)).1]
    rfl

end Lexeme

/-! ### Sources of trivia -/

theorem Cursor.isEnd_next_iff {c : Cursor} : c.next.1.isEnd ↔ Gap.Trivia [] c.ahead := by
  rw [← Lexeme.content_read_eq_endOfFile_iff]
  constructor
  · exact content_of_isEnd
  · intro h
    simp [next, Lexeme.item, h, Item.isEnd, Token.isEndOfFile]

/-- A source is answered with its end alone exactly if it is trivia. -/
theorem exists_answer_endOfFile_iff {settings : Settings} {source : List Char} :
    (∃ t : Token, t.isEndOfFile ∧ (tokenize settings source).answer = .ok ⟨[t], []⟩) ↔
      Gap.Trivia [] source := by
  let c := Cursor.ofSource source
  show _ ↔ Gap.Trivia [] c.ahead
  rw [← Cursor.isEnd_next_iff]
  constructor
  · rintro ⟨t, ht, hanswer⟩
    obtain ⟨hfaults, htokens⟩ := answer_eq_ok_nil_iff.1 hanswer
    by_contra hend
    rw [Bool.not_eq_true] at hend
    have hblock := Cursor.block_none_of_not_isEnd hend
    cases hitem : c.next.1 with
    | token u =>
      rw [hitem] at hblock hend
      rw [hblock] at htokens
      obtain rfl : t = u := (List.cons.inj htokens).1
      rw [Item.isEnd, ht] at hend
      cases hend
    | fault f =>
      rw [hitem] at hblock
      rw [hblock] at hfaults
      cases hfaults
  · intro hend
    obtain ⟨t, ht⟩ := Item.exists_token_of_isEnd hend
    have hblock : c.block none = ⟨[c.next.1], false, c.next.2⟩ := Cursor.block_of_isEnd hend
    rw [ht] at hend hblock
    refine ⟨t, hend, answer_eq_ok_nil_iff.2 ?_⟩
    rw [hblock]
    exact ⟨rfl, rfl⟩

/-! ### Sessions -/

/-- The next item is a comment's fault exactly if the gap breaks off. -/
theorem Cursor.next_eq_comment_iff {c : Cursor} {seen : List Char}
    (hsource : c.source = seen ++ c.ahead) (hmark : c.mark = Mark.origin.after seen) {fault : Fault}
    (hcause : fault.cause = .unterminatedComment) :
    c.next.1 = .fault fault ↔
      ∃ gap comment, Gap.BreaksOff c.ahead gap comment ∧
        fault = Gap.fault c.source (seen ++ gap) comment := by
  have hnext : ∀ {gap comment}, Gap.BreaksOff c.ahead gap comment →
      c.next.1 = .fault (Gap.fault c.source (seen ++ gap) comment) := by
    intro gap comment h
    have hfault := Gap.fault?_unclosed (hsource.trans (congrArg (seen ++ ·) h.text))
    rw [Gap.Ending.fault?, ← hmark, Option.some.injEq] at hfault
    rw [← hfault, next, Lexeme.read_of_breaksOff h]
    rfl
  constructor
  · intro h
    have hcontent := content_of_next_fault h
    rw [hcause] at hcontent
    obtain ⟨gap, comment, hbreaks⟩ := Lexeme.exists_breaksOff hcontent
    exact ⟨gap, comment, hbreaks, Item.fault.inj (h.symm.trans (hnext hbreaks))⟩
  · rintro ⟨gap, comment, hbreaks, rfl⟩
    exact hnext hbreaks

theorem Session.Reachable.perform_next_eq_comment_iff {settings : Settings} {source seen : List Char}
    {session : Session} (hsession : Session.Reachable settings source session)
    (hsource : source = seen ++ session.cursor.ahead)
    (hmark : session.cursor.mark = Mark.origin.after seen) {fault : Fault}
    (hcause : fault.cause = .unterminatedComment) :
    (∃ log after, session.perform .next = (.item (.fault fault), log, after)) ↔
      ∃ gap comment, Gap.BreaksOff session.cursor.ahead gap comment ∧
        fault = Gap.fault source (seen ++ gap) comment := by
  obtain ⟨-, rfl⟩ := hsession.consistent
  rw [← Cursor.next_eq_comment_iff hsource hmark hcause]
  constructor
  · rintro ⟨log, after, hnext⟩
    exact Session.next_of_perform hnext
  · exact fun hitem => ⟨_, _, Session.perform_next hitem⟩

/-! ### Scanners -/

namespace Scanner

variable {s t : Scanner} {taken ahead seen : List Char}

theorem Took.skipGap_of_ends {gap rest : List Char} (h : s.Took taken ahead)
    (hends : Gap.Ends ahead gap rest) : s.skipGap = s.checked gap (none, s.moved gap) := by
  rw [h.skipGap, Gap.read_eq_clear_iff.2 hends]
  rfl

theorem Took.skipGap_of_breaksOff {gap comment : List Char} (h : s.Took taken ahead)
    (hbreaks : Gap.BreaksOff ahead gap comment) :
    s.skipGap = s.checked ahead
      ((Gap.Ending.unclosed gap comment).fault? s.mark, s.moved ahead) := by
  rw [h.skipGap, Gap.read_eq_unclosed_iff.2 hbreaks, hbreaks.text]
  rfl

theorem Took.skipGap_eq_none_iff (h : s.Took taken ahead) :
    s.skipGap = some (none, t) ↔
      ∃ gap rest, Gap.Ends ahead gap rest ∧ s.mark.location.counts gap ∧ t = s.moved gap := by
  constructor
  · intro hskip
    cases hgap : Gap.read ahead with
    | clear gap rest =>
      have hends := Gap.read_eq_clear_iff.1 hgap
      rw [h.skipGap_of_ends hends] at hskip
      obtain ⟨hcounts, heq⟩ := Location.checked_eq_some_iff.1 hskip
      exact ⟨gap, rest, hends, hcounts, (Prod.mk.inj heq).2.symm⟩
    | unclosed gap comment =>
      rw [h.skipGap_of_breaksOff (Gap.read_eq_unclosed_iff.1 hgap)] at hskip
      cases (Location.checked_eq_some_iff.1 hskip).2
  · rintro ⟨gap, rest, hends, hcounts, rfl⟩
    rw [h.skipGap_of_ends hends]
    exact Location.checked_of_counts hcounts _

theorem Took.skipGap_eq_some_iff {fault : Fault} (h : s.Took taken ahead)
    (hsource : s.source = seen ++ ahead) (hmark : s.mark = Mark.origin.after seen) :
    s.skipGap = some (some fault, t) ↔
      ∃ gap comment, Gap.BreaksOff ahead gap comment ∧ s.mark.location.counts ahead ∧
        fault = Gap.fault s.source (seen ++ gap) comment ∧ t = s.moved ahead := by
  have hbroken : ∀ {gap comment}, Gap.BreaksOff ahead gap comment →
      s.skipGap = s.checked ahead
        (some (Gap.fault s.source (seen ++ gap) comment), s.moved ahead) := by
    intro gap comment hbreaks
    rw [h.skipGap_of_breaksOff hbreaks, hmark,
      Gap.fault?_unclosed (hsource.trans (congrArg (seen ++ ·) hbreaks.text))]
  constructor
  · intro hskip
    cases hgap : Gap.read ahead with
    | clear gap rest =>
      rw [h.skipGap_of_ends (Gap.read_eq_clear_iff.1 hgap)] at hskip
      cases (Location.checked_eq_some_iff.1 hskip).2
    | unclosed gap comment =>
      have hbreaks := Gap.read_eq_unclosed_iff.1 hgap
      rw [hbroken hbreaks] at hskip
      obtain ⟨hcounts, heq⟩ := Location.checked_eq_some_iff.1 hskip
      cases heq
      exact ⟨gap, comment, hbreaks, hcounts, rfl, rfl⟩
  · rintro ⟨gap, comment, hbreaks, hcounts, rfl, rfl⟩
    rw [hbroken hbreaks]
    exact Location.checked_of_counts hcounts _

/-- Behind a gap there is no gap, and behind a comment that nothing closes there is nothing. -/
theorem Took.skipGap_again {fault? : Option Fault} (h : s.Took taken ahead)
    (hskip : s.skipGap = some (fault?, t)) : t.skipGap = some (none, t) := by
  cases fault? with
  | none =>
    obtain ⟨gap, rest, hends, -, rfl⟩ := h.skipGap_eq_none_iff.1 hskip
    have hbehind := h.moved_of_eq hends.text.symm
    exact hbehind.skipGap_of_ends ⟨rfl, .nil, hends.clear⟩
  | some fault =>
    obtain ⟨seen, hsource, hmark⟩ := h.exists_seen
    obtain ⟨-, -, -, -, -, rfl⟩ := (h.skipGap_eq_some_iff hsource hmark).1 hskip
    have hbehind := h.moved_of_eq (List.append_nil ahead)
    exact hbehind.skipGap_of_ends ⟨rfl, .nil, by simp, by simp, by simp⟩

theorem Took.exists_skipGap (h : s.Took taken ahead) (hcounts : s.mark.location.counts ahead) :
    ∃ result, s.skipGap = some result := by
  have htext := Gap.text_read ahead
  obtain ⟨behind, hahead⟩ : ∃ behind, (Gap.read ahead).passed ++ behind = ahead := by
    cases hgap : Gap.read ahead with
    | clear gap rest =>
      rw [hgap] at htext
      exact ⟨rest, htext⟩
    | unclosed gap comment =>
      rw [hgap] at htext
      exact ⟨[], (List.append_nil _).trans htext⟩
  rw [← hahead, Location.counts_append, Bool.and_eq_true] at hcounts
  exact ⟨_, h.skipGap.trans (Location.checked_of_counts hcounts.1 _)⟩

/-- Wherever a scanner has come to, it took some text of its source and has the rest ahead. -/
theorem ReachedIn.exists_took {settings : Settings} {source : List Char}
    (hs : s.ReachedIn settings source) :
    ∃ taken seen ahead, s.Took taken ahead ∧ s.source = source ∧ source = seen ++ ahead ∧
      s.mark = Mark.origin.after seen := by
  obtain ⟨x, hfollows, -, hsource⟩ := hs.exists_follows
  obtain ⟨taken, htook⟩ := hfollows.stands.took
  obtain ⟨seen, hparts, hmark⟩ := htook.exists_seen
  have hs_source : s.source = source := hfollows.stands.source.trans hsource
  exact ⟨taken, seen, x.cursor.ahead, htook, hs_source, hs_source ▸ hparts, hmark⟩

end Scanner

/-- From every place of a source the gap ahead ends where the grammar of trivia says it ends, or it
breaks off at a comment up to the end of the source, and nothing else is a fault of a comment. A
scanner that can count so far skips that much, and behind it there is nothing to skip. A source is
answered with its end alone, and no fault, exactly if it is trivia. -/
theorem gaps_skipped_exactly (settings : Settings) (source : List Char) :
    (∀ session, Session.Reachable settings source session → ∃ seen,
      source = seen ++ session.cursor.ahead ∧ session.position = Text.size seen ∧
      (∀ gap rest, Gap.read session.cursor.ahead = .clear gap rest ↔
        Gap.Ends session.cursor.ahead gap rest) ∧
      (∀ gap comment, Gap.read session.cursor.ahead = .unclosed gap comment ↔
        Gap.BreaksOff session.cursor.ahead gap comment) ∧
      ∀ fault, fault.cause = .unterminatedComment →
        ((∃ log after, session.perform .next = (.item (.fault fault), log, after)) ↔
          ∃ gap comment, Gap.BreaksOff session.cursor.ahead gap comment ∧
            fault = Gap.fault source (seen ++ gap) comment)) ∧
    (∀ s : Scanner, s.ReachedIn settings source → ∃ seen ahead,
      source = seen ++ ahead ∧ s.position = Text.size seen ∧
      (∀ t, s.skipGap = some (none, t) ↔ ∃ gap rest, Gap.Ends ahead gap rest ∧
        (Location.origin.after seen).counts gap ∧ t = s.moved gap ∧
        t.position = Text.size (seen ++ gap)) ∧
      (∀ fault t, s.skipGap = some (some fault, t) ↔ ∃ gap comment, Gap.BreaksOff ahead gap comment ∧
        (Location.origin.after seen).counts ahead ∧
        fault = Gap.fault source (seen ++ gap) comment ∧ t = s.moved ahead) ∧
      (∀ fault? t, s.skipGap = some (fault?, t) → t.skipGap = some (none, t)) ∧
      (Location.origin.counts source → ∃ result, s.skipGap = some result)) ∧
    ((∃ t : Token, t.isEndOfFile ∧ (tokenize settings source).answer = .ok ⟨[t], []⟩) ↔
      Gap.Trivia [] source) := by
  refine ⟨?_, ?_, exists_answer_endOfFile_iff⟩
  · intro session hsession
    obtain ⟨⟨seen, hparts, hmark⟩, rfl⟩ := hsession.consistent
    refine ⟨seen, hparts, ?_, fun _ _ => Gap.read_eq_clear_iff,
      fun _ _ => Gap.read_eq_unclosed_iff,
      fun _ hcause => hsession.perform_next_eq_comment_iff hparts hmark hcause⟩
    rw [Session.position, Cursor.position, hmark, Mark.origin_after_offset]
  · intro s hs
    obtain ⟨taken, seen, ahead, htook, rfl, hparts, hmark⟩ := hs.exists_took
    have hposition : s.position = Text.size seen := by
      rw [Scanner.position, hmark, Mark.origin_after_offset]
    have hlocation : s.mark.location = Location.origin.after seen := by
      rw [hmark, Mark.location_after]
      rfl
    refine ⟨seen, ahead, hparts, hposition, ?_⟩
    rw [← hlocation]
    refine ⟨?_, fun _ _ => htook.skipGap_eq_some_iff hparts hmark, fun _ _ => htook.skipGap_again, ?_⟩
    · intro t
      rw [htook.skipGap_eq_none_iff]
      refine exists_congr fun gap => exists_congr fun rest => ?_
      constructor
      · rintro ⟨hends, hcounts, rfl⟩
        refine ⟨hends, hcounts, rfl, ?_⟩
        rw [Scanner.position_moved, hposition, Text.size_append]
      · rintro ⟨hends, hcounts, ht, -⟩
        exact ⟨hends, hcounts, ht⟩
    · intro hcounts
      rw [hparts, Location.counts_append, Bool.and_eq_true, ← hlocation] at hcounts
      exact htook.exists_skipGap hcounts.2

/-- A blank that is no space, comments that look like others, and then one that its own star does not
close. -/
theorem gaps_skipped_exactly_slash :
    let gap := ['\u3000', '-', '-', '/', '*', '\n', '/', '*', '/', '*', '*', '/', '/', '*', '*', '*', '/']
    let comment := ['/', '*', '/']
    let source := gap ++ 'a' :: comment
    (∃ s t : Scanner, s.ReachedIn .batch source ∧ s.position = 0 ∧
      s.skipGap = some (none, t) ∧ t.position = 19 ∧ t.skipGap = some (none, t)) ∧
    (∃ s t : Scanner, s.ReachedIn .batch source ∧ s.position = 20 ∧
      s.skipGap = some (some ⟨.unterminatedComment, "/*/", ⟨20, 23⟩, ⟨2, 13⟩⟩, t)) ∧
    ∃ t : Token, t.isEndOfFile ∧ (tokenize .batch gap).answer = .ok ⟨[t], []⟩ := by
  intro gap comment source
  have htrivia : ∀ rest, Gap.Trivia rest gap := by
    intro rest
    have hline : '\n' ∉ ['/', '*'] := by decide
    have hslash : ¬ ['*', '/'] <:+: ['/', '*'] := by decide
    have hstar : ¬ ['*', '/'] <:+: ['*'] := by decide
    refine .blank (by decide) (.line hline (by simp) (.blank (by decide) ?_))
    exact .block hslash (.block hstar .nil)
  refine ⟨?_, ?_, (gaps_skipped_exactly .batch gap).2.2.2 (htrivia [])⟩
  · have hreached : (Scanner.ofSource .batch source).ReachedIn .batch source := ⟨[], [], rfl⟩
    obtain ⟨seen, ahead, hsource, hposition, hends, -, hagain, -⟩ :=
      (gaps_skipped_exactly .batch source).2.1 _ hreached
    have hsplit : [] ++ source = seen ++ ahead := hsource
    obtain ⟨rfl, rfl⟩ := Text.append_inj_of_size hsplit hposition
    have hletter : Text.isBlank 'a' = false := by decide
    have hgap : Gap.Ends source gap ('a' :: comment) :=
      ⟨rfl, htrivia _, by simp [hletter], by decide, by decide⟩
    have hskip := (hends ((Scanner.ofSource .batch source).moved gap)).2
      ⟨gap, _, hgap, by decide, rfl, by decide⟩
    exact ⟨_, _, hreached, rfl, hskip, by decide, hagain _ _ hskip⟩
  · have hreached : (Scanner.mk source .batch ⟨20, ⟨2, 13⟩⟩ ⟨20, ⟨2, 13⟩⟩).ReachedIn .batch source :=
      ⟨[.seek 20], _, rfl⟩
    obtain ⟨seen, ahead, hsource, hposition, -, hbreaks, -⟩ :=
      (gaps_skipped_exactly .batch source).2.1 _ hreached
    have hsplit : gap ++ ['a'] ++ comment = seen ++ ahead := hsource
    obtain ⟨rfl, rfl⟩ := Text.append_inj_of_size hsplit hposition
    have hcomment : Gap.BreaksOff comment [] comment :=
      ⟨rfl, .nil, ['/'], rfl, by decide⟩
    have hfault : Gap.fault source (gap ++ ['a'] ++ []) comment
        = ⟨.unterminatedComment, "/*/", ⟨20, 23⟩, ⟨2, 13⟩⟩ := by
      decide
    have hskip := (hbreaks _ _).2 ⟨[], comment, hcomment, by decide, hfault.symm, rfl⟩
    exact ⟨_, _, hreached, rfl, hskip⟩

end SqlScan
