import SqlScan.Proofs.Resumption
import SqlScan.Proofs.Words

/-!
# Names as they are written

A name is written as its segments with a dot between each two of them. In front of a text that goes
on with neither the last segment nor the name, such a text is read as one token (`front_written`), and
every token of a name is read from such a text (`nameWritten_front`). So each name can be written and
read back, and each token of a name can be told by what is written.

A token of several segments carries them without their quotes. A token of one segment keeps them and
gets them off when it is asked for its name, by a decoder of its own (`unquoted_text`).
-/

namespace SqlScan

/-- A word that is no reserved word, in whatever case. -/
def Word.IsName (word : List Char) : Prop := IsWord word ∧ Keyword.capitals word ∉ reserved

/-- Only a word can make a segment ill-formed. -/
theorem Segment.forall_wellFormed_iff {segments : List Segment} :
    (∀ s ∈ segments, s.WellFormed) ↔ ∀ word, .bare word ∈ segments → Word.IsName word := by
  have hword : ∀ word, (bare word).WellFormed ↔ Word.IsName word := by
    intro word
    rw [WellFormed, Word.IsName, ← Word.isReserved_iff, Bool.not_eq_true]
  constructor
  · exact fun h word hmem => (hword word).1 (h _ hmem)
  · intro h s hs
    cases s with
    | bare word => exact (hword word).2 (h word hs)
    | quoted value => trivial

/-! ### Names and their segments -/

namespace Name

/-- Segments with a dot between each two of them. -/
def written (segments : List Segment) : List Char := ['.'].intercalate (segments.map Segment.text)

theorem written_cons (first : Segment) (more : List Segment) :
    written (first :: more) = first.text ++ continued more := by
  induction more generalizing first with
  | nil => simp [written, continued]
  | cons s more ih =>
    have hmore := ih s
    simp only [written, List.map_cons] at hmore
    simp [written, hmore, continued]

theorem dot_written {segments : List Segment} (h : segments ≠ []) :
    '.' :: written segments = continued segments := by
  obtain ⟨first, more, rfl⟩ := List.exists_cons_of_ne_nil h
  rw [written_cons]
  simp [continued]

/-- The segments are a name in front of a text that goes on neither with the last of them nor with
the name. -/
structure StandsBefore (segments : List Segment) (rest : List Char) : Prop where
  ne_nil : segments ≠ []
  wellFormed : ∀ s ∈ segments, s.WellFormed
  last : ∀ s ∈ segments.getLast?, s.EndsBefore rest
  complete : continuation rest = .complete [] rest

theorem continuation_dot_written {segments : List Segment} {rest : List Char}
    (h : StandsBefore segments rest) :
    continuation ('.' :: (written segments ++ rest)) = .complete segments rest := by
  rw [← List.cons_append, dot_written h.ne_nil, continuation_continued h.wellFormed h.last,
    h.complete, Continuation.foldr_cons_complete]

theorem StandsBefore.of_nil {segments : List Segment} (hne : segments ≠ [])
    (h : ∀ s ∈ segments, s.WellFormed) : StandsBefore segments [] := by
  refine ⟨hne, h, ?_, continuation_of_head (by simp)⟩
  intro s _
  cases s <;> simp [Segment.EndsBefore]

/-- A name is made of its segments in one way only. -/
theorem written_injective {segments others : List Segment} (hne : segments ≠ [])
    (h : ∀ s ∈ segments, s.WellFormed) (hothers_ne : others ≠ [])
    (hothers : ∀ s ∈ others, s.WellFormed) (heq : written segments = written others) :
    segments = others := by
  have hread := continuation_dot_written (.of_nil hne h)
  rw [heq, continuation_dot_written (.of_nil hothers_ne hothers)] at hread
  exact (Continuation.complete.inj hread).1.symm

end Name

/-- The content is the token of a name. -/
def Content.IsName : Content → Prop
  | .token kind => kind.tokenClass = .identifier
  | .fault _ => False

namespace Lexeme

open Name (StandsBefore)

/-- A name in front of some text. -/
def ofSegments (segments : List Segment) (rest : List Char) : Lexeme :=
  ⟨[], Name.written segments, rest, .token (.ofSegments (segments.map Segment.name))⟩

theorem front_written {segments : List Segment} {rest : List Char}
    (h : StandsBefore segments rest) :
    front (Name.written segments ++ rest) = ofSegments segments rest := by
  obtain ⟨first, more, rfl⟩ := List.exists_cons_of_ne_nil h.ne_nil
  obtain ⟨hfirst, hmore⟩ := List.forall_mem_cons.1 h.wellFormed
  have hcontinuation : Name.continuation (Name.continued more ++ rest) = .complete more rest := by
    rw [Name.continuation_continued hmore fun s hs => h.last s (List.mem_getLast?_cons hs),
      h.complete, Name.Continuation.foldr_cons_complete]
  rw [Name.written_cons, List.append_assoc,
    front_segment hfirst (Name.endsBefore_continued h.last), ofName, hcontinuation, ofSegments,
    Name.written_cons]
  rfl

theorem read_written {segments : List Segment} {rest : List Char}
    (h : StandsBefore segments rest) :
    read (Name.written segments ++ rest) = ofSegments segments rest := by
  obtain ⟨first, more, hsegments⟩ := List.exists_cons_of_ne_nil h.ne_nil
  have hfirst : first.WellFormed := h.wellFormed first (by simp [hsegments])
  have hgap : Gap.read (Name.written segments ++ rest)
      = .clear [] (Name.written segments ++ rest) := by
    rw [hsegments, Name.written_cons, List.append_assoc]
    exact Segment.clear_text_append hfirst _
  rw [(read_of_clear hgap).1, front_written h]
  rfl

/-- If the lexeme is a name, it is written from segments that stand before the rest. -/
def NameWritten (x : Lexeme) : Prop :=
  x.content.IsName → ∃ segments rest, StandsBefore segments rest ∧ x = ofSegments segments rest

theorem nameWritten_ofName {first : Segment} {text : List Char} (hfirst : first.WellFormed)
    (hend : first.EndsBefore text) : NameWritten (ofName first text) := by
  have hsegments := Name.wellFormed_continuation text
  unfold ofName
  split
  · rename_i more rest hk
    intro _
    rw [hk] at hsegments
    obtain ⟨hmore, hrest⟩ := Name.rest_of_complete hk
    refine ⟨first :: more, rest, ⟨by simp, ?_, Name.endsBefore_getLast hk hend hmore, hrest⟩, ?_⟩
    · exact List.forall_mem_cons.2 ⟨hfirst, hsegments⟩
    · rw [ofSegments, Name.written_cons]
      rfl
  · exact nofun

theorem nameWritten_ofWord {word text : List Char} (hword : Word.IsWord word)
    (hend : ∀ c ∈ text.head?, Word.isPart c = false) : NameWritten (ofWord word text) := by
  unfold ofWord
  split
  · exact nofun
  · split
    · exact nofun
    · rename_i hliteral _ hkeyword
      have hfirst : (Segment.bare word).WellFormed :=
        ⟨hword, by simp [Word.isReserved, hliteral, hkeyword]⟩
      exact nameWritten_ofName hfirst hend

theorem nameWritten_ofString (body : List Char) : NameWritten (ofString body) := by
  unfold ofString
  split <;> exact nofun

theorem nameWritten_ofQuotedName (body : List Char) : NameWritten (ofQuotedName body) := by
  unfold ofQuotedName
  split
  · rename_i value rest hread
    have hfirst : (Segment.quoted value).WellFormed := trivial
    exact nameWritten_ofName hfirst (Quoted.head?_of_read? hread)
  · exact nofun

theorem nameWritten_ofNumeral (text : List Char) : NameWritten (ofNumeral text) := by
  unfold ofNumeral
  split
  split <;> exact nofun

theorem nameWritten_ofChar (c : Char) (cs : List Char) : NameWritten (ofChar c cs) := by
  refine ofChar_cases ?delimiter ?operator ?string ?quotedName ?numeral ?word ?unexpected
  case delimiter => exact fun _ _ => nofun
  case operator => exact fun _ _ _ _ => nofun
  case string => exact fun _ => nameWritten_ofString cs
  case quotedName => exact fun _ => nameWritten_ofQuotedName cs
  case numeral => exact fun _ => nameWritten_ofNumeral _
  case word =>
    intro hstart
    exact nameWritten_ofWord (Word.isWord_takeWhile cs hstart) (Text.head_dropWhile _ cs)
  case unexpected => exact nofun

theorem nameWritten_front (text : List Char) : NameWritten (front text) := by
  cases text with
  | nil => exact nofun
  | cons c cs => exact nameWritten_ofChar c cs

theorem exists_segments_of_read {text : List Char} {kind : TokenKind}
    (h : (read text).content = .token kind) (hkind : kind.tokenClass = .identifier) :
    ∃ segments, StandsBefore segments (read text).rest ∧
      (read text).covered = Name.written segments ∧
      kind = .ofSegments (segments.map Segment.name) := by
  unfold read at h ⊢
  split at h
  · rename_i gap rest hgap
    have hname : (front rest).content.IsName := by
      rw [show (front rest).content = .token kind from h]
      exact hkind
    obtain ⟨segments, left, hstands, hfront⟩ := nameWritten_front rest hname
    refine ⟨segments, ?_⟩
    rw [hfront] at h ⊢
    exact ⟨hstands, rfl, (Content.token.inj h).symm⟩
  · cases h

end Lexeme

/-! ### Tokens of names -/

namespace Token

theorem undoubled_encode (value : List Char) : undoubled (Quoted.encode '"' value) = value := by
  induction value with
  | nil => rfl
  | cons c cs ih =>
    by_cases hc : c = '"'
    · rw [hc, Quoted.encode, if_pos rfl, undoubled, ih]
    · rw [Quoted.encode, if_neg hc, undoubled, ih]
      rintro _ rfl
      exact absurd rfl hc

/-- Taking the quotes off a written segment gives what the segment holds. -/
theorem unquoted_text {s : Segment} (h : s.WellFormed) :
    String.ofList (unquoted s.text) = s.name := by
  cases s with
  | bare word =>
    obtain ⟨⟨c, cs, rfl, hstart, -⟩, -⟩ := h
    rw [Segment.text, unquoted, Segment.name]
    rintro _ hquote
    obtain ⟨rfl, -⟩ := List.cons.inj hquote
    exact absurd hstart (by decide)
  | quoted value =>
    simp [Segment.text, Quoted.text, unquoted, Segment.name, undoubled_encode]

/-- The token gives these names: all of them as segments if there are several, and the name itself if
there is one. -/
structure Names (t : Token) (names : List String) : Prop where
  several : 2 ≤ names.length → t.segments? = some names ∧ t.name? = none
  single : ∀ name, names = [name] → t.segments? = none ∧ t.name? = some name

theorem names_of_written {t : Token} {segments : List Segment}
    (hsegments : ∀ s ∈ segments, s.WellFormed)
    (hkind : t.kind = .ofSegments (segments.map Segment.name))
    (htext : t.text = String.ofList (Name.written segments)) :
    t.Names (segments.map Segment.name) where
  several hlength := by
    rw [TokenKind.ofSegments, if_pos (Nat.lt_of_succ_le hlength)] at hkind
    simp only [segments?, name?, hkind, and_self]
  single name hname := by
    obtain ⟨s, rfl, rfl⟩ := List.map_eq_singleton_iff.1 hname
    have hwritten : Name.written [s] = s.text := List.intercalate_singleton
    have hquotes := unquoted_text (hsegments s List.mem_cons_self)
    rw [TokenKind.ofSegments, if_neg (by simp)] at hkind
    simp only [segments?, name?, hkind, htext, hwritten, String.toList_ofList, hquotes, and_self]

end Token

/-- The token is written from the segments behind one text and in front of another one, and gives
the segments without their quotes. It goes on as far as it can: no character behind it belongs to its
last word, and no segment follows behind a dot. -/
structure Token.SpellsName (t : Token) (before : List Char) (segments : List Segment)
    (after : List Char) : Prop where
  span : t.span = ⟨Text.size before, Text.size (before ++ Name.written segments)⟩
  ne_nil : segments ≠ []
  words : ∀ word, .bare word ∈ segments → Word.IsName word
  names : t.Names (segments.map Segment.name)
  ends : ∀ word, segments.getLast? = some (.bare word) →
    ∀ c ∈ after.head?, Word.isPart c = false
  stops : ∀ more, after = '.' :: more →
    more.head? ≠ some '"' ∧
      ∀ c ∈ more.head?, Word.isStart c →
        Keyword.capitals (more.takeWhile Word.isPart) ∈ Word.reserved

/-- A token is spelled in one way only. -/
theorem Token.SpellsName.unique {t : Token} {before before' after after' : List Char}
    {segments segments' : List Segment} (h : t.SpellsName before segments after)
    (h' : t.SpellsName before' segments' after')
    (hsource : before ++ Name.written segments ++ after
      = before' ++ Name.written segments' ++ after') :
    before = before' ∧ segments = segments' ∧ after = after' := by
  obtain ⟨hstart, hstop⟩ := Span.mk.inj (h.span.symm.trans h'.span)
  obtain ⟨hfront, hafter⟩ := Text.append_inj_of_size hsource hstop
  obtain ⟨hbefore, hwritten⟩ := Text.append_inj_of_size hfront hstart
  have hsegments := Name.written_injective h.ne_nil (Segment.forall_wellFormed_iff.2 h.words)
    h'.ne_nil (Segment.forall_wellFormed_iff.2 h'.words) hwritten
  exact ⟨hbefore, hsegments, hafter⟩

theorem Cursor.Consistent.spellsName {c : Cursor} {t : Token} (hc : c.Consistent)
    (h : c.next.1 = .token t) (hname : t.kind.tokenClass = .identifier) :
    ∃ before segments after, c.source = before ++ Name.written segments ++ after ∧
      t.SpellsName before segments after := by
  obtain ⟨hcontent, htext⟩ := content_of_next h
  obtain ⟨segments, hstands, hcovered, hkind⟩ := Lexeme.exists_segments_of_read hcontent hname
  obtain ⟨seen, hsource, -, hstart, hstop, -⟩ := hc.split
  have hcovered : c.covered = Name.written segments := hcovered
  rw [h, Item.span, hcovered] at hstop
  rw [h, Item.span] at hstart
  rw [hcovered] at hsource
  refine ⟨seen ++ c.passed, segments, c.next.2.ahead, hsource, ?_, hstands.ne_nil,
    Segment.forall_wellFormed_iff.1 hstands.wellFormed, ?_, ?_, ?_⟩
  · rw [← hstart, ← hstop]
  · apply Token.names_of_written hstands.wellFormed hkind
    rw [htext, hcovered, hkind, TokenKind.textOf_ofSegments]
  · intro word hword
    exact hstands.last (.bare word) hword
  · intro more hmore
    have hcomplete : Name.continuation c.next.2.ahead = .complete [] c.next.2.ahead :=
      hstands.complete
    rw [hmore] at hcomplete
    obtain ⟨hquote, hword⟩ := Name.continuation_dot_iff.1 hcomplete
    exact ⟨hquote, fun d hd hstart => Word.isReserved_iff.1 (hword d hd hstart)⟩

/-- Every token of a name in any answer is written from segments, which it gives, and goes on as far
as it can; and no other segments can be read from what is written. -/
theorem name_tokens_spelled {s : Settings} {source : List Char} {stream : TokenStream}
    (h : (tokenize s source).answer = .ok stream) {t : Token} (ht : t ∈ stream.tokens)
    (hname : t.kind.tokenClass = .identifier) :
    ∃! segments : List Segment, ∃ before after,
      source = before ++ Name.written segments ++ after ∧ t.SpellsName before segments after := by
  obtain ⟨items, c, hreads, hitem | rfl⟩ := mem_tokens_of_answer h ht
  · obtain ⟨m, hm, hsource, hnext⟩ := hreads.exists_next (Cursor.consistent_ofSource source) hitem
    obtain ⟨before, segments, after, hsplit, hspells⟩ := hm.spellsName hnext hname
    have hsource : source = before ++ Name.written segments ++ after := hsource.symm.trans hsplit
    refine ⟨segments, ⟨before, after, hsource, hspells⟩, ?_⟩
    rintro others ⟨before', after', hothers, hspells'⟩
    exact (hspells'.unique hspells (hothers.symm.trans hsource)).2.1
  · cases hname

/-- A name in an answer with a fault stops before a dot with a reserved word behind it. -/
theorem name_tokens_spelled_reserved :
    let source := ['ü', '.', '"', 'a', '"', '"', '"', '.', 'F', 'r', 'o', 'm', ' ', '\'']
    ∃ stream t, (tokenize .batch source).answer = .ok stream ∧ t ∈ stream.tokens ∧
      t.span = ⟨0, 8⟩ ∧ t.segments? = some ["ü", "a\""] ∧
      ∃! segments : List Segment, ∃ before after,
        source = before ++ Name.written segments ++ after ∧ t.SpellsName before segments after := by
  intro source
  have ht : ⟨"ü.\"a\"\"\"", .dottedName ["ü", "a\""], ⟨0, 8⟩, ⟨1, 1⟩⟩
      ∈ ((Cursor.ofSource source).block none).stream.tokens := by
    decide +kernel
  exact ⟨_, _, rfl, ht, rfl, rfl, name_tokens_spelled (s := .batch) rfl ht rfl⟩

/-! ### Any name can be written -/

/-- Behind its last lexeme a source has only its end left. -/
theorem Cursor.block_none_of_nil {c : Cursor} (h : c.ahead = []) :
    c.block none = ⟨[.token (.endOfFile (c.mark.spanTo c.mark) c.mark.location)], false, c⟩ := by
  obtain ⟨source, mark, ahead⟩ := c
  subst h
  have hnext : (Cursor.mk source mark []).next
      = (.token (.endOfFile (mark.spanTo mark) mark.location), ⟨source, mark, []⟩) := by
    rw [next, Lexeme.read_nil]
    rfl
  rw [block_of_isEnd (by rw [hnext]; rfl), hnext]

/-- A source that is read as one token has that token and its end. -/
theorem Cursor.block_none_of_read {source : List Char} {kind : TokenKind}
    (h : Lexeme.read source = ⟨[], source, [], .token kind⟩) (hkind : (kind == .endOfFile) = false) :
    let stop := Mark.origin.after source
    (Cursor.ofSource source).block none =
      ⟨[.token ⟨kind.textOf source, kind, ⟨0, stop.offset⟩, ⟨1, 1⟩⟩,
        .token (.endOfFile ⟨stop.offset, stop.offset⟩ stop.location)], false, ⟨source, stop, []⟩⟩ := by
  intro stop
  have hnext : (Cursor.ofSource source).next
      = (.token ⟨kind.textOf source, kind, ⟨0, stop.offset⟩, ⟨1, 1⟩⟩, ⟨source, stop, []⟩) := by
    rw [next]
    simp only [ofSource, h]
    rfl
  have hrest := block_none_of_nil (c := ⟨source, stop, []⟩) rfl
  rw [block_of_token (congrArg Prod.fst hnext) hkind, hnext, hrest]
  rfl

/-- A source that is a name is read as the token of that name. -/
theorem answer_written {segments : List Segment} (hne : segments ≠ [])
    (h : ∀ s ∈ segments, s.WellFormed) (limit : Option FaultLimit) :
    let source := Name.written segments
    let stop := Mark.origin.after source
    (tokenize ⟨.failFast, limit⟩ source).answer = .ok
      ⟨[⟨String.ofList source, .ofSegments (segments.map Segment.name), ⟨0, stop.offset⟩, ⟨1, 1⟩⟩,
        .endOfFile ⟨stop.offset, stop.offset⟩ stop.location], []⟩ := by
  intro source stop
  have hread : Lexeme.read source = Lexeme.ofSegments segments [] := by
    have hread := Lexeme.read_written (.of_nil hne h)
    rwa [List.append_nil] at hread
  have hkind : (TokenKind.ofSegments (segments.map Segment.name) == .endOfFile) = false := by
    unfold TokenKind.ofSegments
    split <;> rfl
  rw [answer_failFast_eq_ok_iff, Cursor.block_none_of_read hread hkind,
    TokenKind.textOf_ofSegments]
  exact ⟨rfl, rfl⟩

/-- Every list of names can be written, each name between quotes or, if it is a word that is not
reserved, as it stands; and reading what is written gives one token, which gives the names. -/
theorem written_names_read_back (limit : Option FaultLimit) {names : List String}
    {segments : List Segment} (hne : names ≠ []) (hnames : segments.map Segment.name = names)
    (hwords : ∀ word, .bare word ∈ segments → Word.IsName word) :
    let source := Name.written segments
    let stop := Text.size source
    ∃ t : Token, t.kind.tokenClass = .identifier ∧ t.span = ⟨0, stop⟩ ∧ t.Names names ∧
      (tokenize ⟨.failFast, limit⟩ source).answer
        = .ok ⟨[t, .endOfFile ⟨stop, stop⟩ (Location.origin.after source)], []⟩ := by
  intro source stop
  subst hnames
  have hsegments := Segment.forall_wellFormed_iff.2 hwords
  have hanswer := answer_written (fun h => hne (by rw [h]; rfl)) hsegments limit
  dsimp only at hanswer
  rw [Mark.origin_after_offset, Mark.location_after] at hanswer
  exact ⟨_, TokenKind.tokenClass_ofSegments _, rfl, Token.names_of_written hsegments rfl rfl, hanswer⟩

/-- An empty name, a reserved word, a dot and quotes among the names. -/
theorem written_names_read_back_quotes :
    let names := ["", "_1", "select", "\".\""]
    let segments : List Segment :=
      [.quoted [], .bare ['_', '1'], .quoted ['s', 'e', 'l', 'e', 'c', 't'], .quoted ['"', '.', '"']]
    Name.written segments = "\"\"._1.\"select\".\"\"\".\"\"\"".toList ∧
    ∃ t : Token, t.kind.tokenClass = .identifier ∧ t.span = ⟨0, 22⟩ ∧ t.Names names ∧
      (tokenize .failFast (Name.written segments)).answer
        = .ok ⟨[t, .endOfFile ⟨22, 22⟩ ⟨1, 23⟩], []⟩ := by
  intro names segments
  have hnames : segments.map Segment.name = names := rfl
  have hwords : ∀ word, .bare word ∈ segments → Word.IsName word := by
    intro word hword
    have hword : word = ['_', '1'] := by simpa [segments] using hword
    subst hword
    have hdigit : ∀ c ∈ ['1'], Word.isPart c := List.forall_mem_singleton.2 (by decide)
    exact ⟨⟨'_', ['1'], rfl, by decide, hdigit⟩, by decide +kernel⟩
  have hstop : Text.size (Name.written segments) = 22 := by decide
  have hplace : Location.origin.after (Name.written segments) = ⟨1, 23⟩ := by decide
  have hread := written_names_read_back none (by decide) hnames hwords
  dsimp only at hread
  rw [hstop, hplace] at hread
  exact ⟨by decide, hread⟩

end SqlScan
