import SqlScan.Proofs.Lossless

/-!
# Tokens are their own spelling

A token written out is read as itself again wherever a separator or the end of the source follows,
because nothing that a token of any kind looks at goes past the first blank behind it. So any tokens,
from whatever sources, written with separators between them are read as those tokens in that order.
-/

namespace SqlScan

namespace Token

/-- Reading somewhere in some source gives this token. -/
def Produced (t : Token) : Prop := ∃ c : Cursor, c.next.1 = .token t

/-- What a token says, whatever its place. -/
def content (t : Token) : TokenKind × String := (t.kind, t.text)

/-- A text that is some tokens as written, with separators between them. -/
inductive Spaced : List Token → List Char → Prop where
  | nil : Spaced [] []
  | single (t : Token) : Spaced [t] t.written.toList
  | cons {t u : Token} {ts : List Token} {separator text : List Char}
      (hseparator : Gap.Separator separator) (h : Spaced (u :: ts) text) :
      Spaced (t :: u :: ts) (t.written.toList ++ separator ++ text)

end Token

/-! ### One token -/

theorem Gap.Separator.apart {separator : List Char} (h : Separator separator) (text : List Char) :
    Text.Apart (separator ++ text) := by
  obtain ⟨c, rest, rfl, hblank⟩ := h.exists_blank
  exact .cons hblank (rest ++ text)

theorem Lexeme.read_separator_append {separator : List Char} (h : Gap.Separator separator)
    (text : List Char) : read (separator ++ text) = (read text).behind separator :=
  read_append_of_gap (h.read_append text)

namespace Cursor

variable {c : Cursor} {t : Token} {lead rest : List Char}

/-- A token in front of a text that is apart is read again, behind a separator or none. -/
theorem next_of_produced (ht : t.Produced) (hend : t.isEndOfFile = false)
    (hlead : lead = [] ∨ Gap.Separator lead) (hrest : Text.Apart rest)
    (hahead : c.ahead = lead ++ t.written.toList ++ rest) :
    ∃ u, c.next.1 = .token u ∧ u.content = t.content ∧ c.next.2.ahead = rest := by
  obtain ⟨origin, horigin⟩ := ht
  obtain ⟨hcontent, htext⟩ := content_of_next horigin
  have hkind : t.kind ≠ .endOfFile := by
    intro h
    simp [Token.isEndOfFile, h] at hend
  have hagain := Lexeme.read_covered_append hrest hcontent hkind
  rw [show (Lexeme.read origin.ahead).covered = t.written.toList from (written_next horigin).symm]
    at hagain
  have hread : Lexeme.read c.ahead = ⟨lead, t.written.toList, rest, .token t.kind⟩ := by
    rw [hahead, List.append_assoc]
    rcases hlead with rfl | hlead
    · exact hagain
    · rw [Lexeme.read_separator_append hlead, hagain]
      simp [Lexeme.behind]
  obtain ⟨span, location, hnext, hnext_ahead⟩ := next_of_read hread
  refine ⟨_, hnext, ?_, hnext_ahead⟩
  rw [Token.content, Token.content, htext, written_next horigin]

theorem next_of_nil (hlead : lead = [] ∨ Gap.Separator lead) (hahead : c.ahead = lead) :
    ∃ u, c.next.1 = .token u ∧ u.content = (.endOfFile, "") := by
  have hread : Lexeme.read c.ahead = ⟨lead, [], [], .token .endOfFile⟩ := by
    rw [hahead]
    rcases hlead with rfl | hlead
    · exact Lexeme.read_nil
    · have hread := Lexeme.read_separator_append hlead []
      rw [List.append_nil, Lexeme.read_nil] at hread
      simpa [Lexeme.behind] using hread
  obtain ⟨span, location, hnext, -⟩ := next_of_read hread
  exact ⟨_, hnext, rfl⟩

/-! ### Many tokens -/

/-- Reading on to the end of the source meets no fault and gives tokens that say this. -/
def ReadsAs (c : Cursor) (contents : List (TokenKind × String)) : Prop :=
  (c.block none).faults = [] ∧ (c.block none).tokens.map Token.content = contents

theorem readsAs_nil (hlead : lead = [] ∨ Gap.Separator lead) (hahead : c.ahead = lead) :
    c.ReadsAs [(.endOfFile, "")] := by
  obtain ⟨u, hnext, hcontent⟩ := next_of_nil hlead hahead
  have hend : c.next.1.isEnd := by
    rw [hnext, Item.isEnd, Token.isEndOfFile, (Prod.mk.inj hcontent).1]
    rfl
  rw [ReadsAs, block_of_isEnd hend, hnext, ← hcontent]
  exact ⟨rfl, rfl⟩

theorem readsAs_cons {u : Token} {contents : List (TokenKind × String)}
    (hnext : c.next.1 = .token u) (hcontent : u.content = t.content)
    (hend : t.isEndOfFile = false) (h : c.next.2.ReadsAs contents) :
    c.ReadsAs (t.content :: contents) := by
  have huend : u.isEndOfFile = false := by
    rw [Token.isEndOfFile, (Prod.mk.inj hcontent).1]
    exact hend
  rw [ReadsAs, block_of_token hnext huend, ← hcontent, ← h.2]
  exact ⟨h.1, rfl⟩

/-- The tokens are read one after another, each behind the separator that follows the one before. -/
theorem readsAs_of_spaced {ts : List Token} {text : List Char} (htext : Token.Spaced ts text)
    (hts : ∀ t ∈ ts, t.Produced ∧ t.isEndOfFile = false)
    (hlead : lead = [] ∨ Gap.Separator lead) (hahead : c.ahead = lead ++ text) :
    c.ReadsAs (ts.map Token.content ++ [(.endOfFile, "")]) := by
  induction htext generalizing c lead with
  | nil =>
    rw [List.append_nil] at hahead
    exact readsAs_nil hlead hahead
  | single t =>
    obtain ⟨hproduced, hend⟩ := hts t List.mem_cons_self
    rw [← List.append_nil (lead ++ _)] at hahead
    obtain ⟨u, hnext, hcontent, hrest⟩ := next_of_produced hproduced hend hlead .nil hahead
    exact readsAs_cons hnext hcontent hend (readsAs_nil (.inl rfl) hrest)
  | @cons t u ts separator text hseparator h ih =>
    obtain ⟨hproduced, hend⟩ := hts t List.mem_cons_self
    rw [List.append_assoc t.written.toList, ← List.append_assoc lead] at hahead
    obtain ⟨v, hnext, hcontent, hrest⟩ :=
      next_of_produced hproduced hend hlead (hseparator.apart text) hahead
    apply readsAs_cons hnext hcontent hend
    exact ih (fun w hw => hts w (List.mem_cons_of_mem t hw)) (.inr hseparator) hrest

/-! ### The tokens of a source -/

/-- Reading ends with an end-of-file token and gives no other. -/
theorem tokens_block_none (c : Cursor) :
    (c.block none).tokens.map Token.content =
      ((c.block none).tokens.filter (fun t => !t.isEndOfFile)).map Token.content
        ++ [(.endOfFile, "")] := by
  induction c using readInduction with
  | atEnd c hend =>
    obtain ⟨t, ht⟩ := Item.exists_token_of_isEnd hend
    rw [ht, Item.isEnd] at hend
    have hkind : t.kind = .endOfFile := by simpa [Token.isEndOfFile] using hend
    have htext : t.text = "" := by
      rw [(content_of_next ht).2, hkind]
      rfl
    rw [block_of_isEnd (by rwa [ht]), ht]
    simp [Block.tokens, Item.token?, hend, Token.content, hkind, htext]
  | atToken c t htoken hend ih =>
    rw [block_of_token htoken hend]
    simp only [Block.tokens, Block.cons, Item.token?, List.filterMap_cons] at ih ⊢
    rw [List.filter_cons_of_pos (by simp [hend]), List.map_cons, ih, List.map_cons]
    rfl
  | atFault c f hfault ih =>
    rw [block_none_of_fault hfault]
    exact ih

end Cursor

theorem Token.produced_of_answer {s : Settings} {source : List Char} {stream : TokenStream}
    (h : (tokenize s source).answer = .ok stream) {t : Token} (ht : t ∈ stream.tokens)
    (hend : t.isEndOfFile = false) : t.Produced := by
  obtain ⟨items, c, hreads, hitem | rfl⟩ := mem_tokens_of_answer h ht
  · obtain ⟨m, -, -, hnext⟩ := hreads.exists_next (Cursor.consistent_ofSource source) hitem
    exact ⟨m, hnext⟩
  · simp [isEndOfFile, endOfFile] at hend

/-! ### Writing tokens with one space between them -/

theorem Token.spaced_rendered (tokens : List Token) :
    Spaced (tokens.filter fun t => !t.isEndOfFile) (rendered tokens).toList := by
  rw [rendered]
  generalize tokens.filter (fun t => !t.isEndOfFile) = ts
  induction ts with
  | nil => exact .nil
  | cons t ts ih =>
    cases ts with
    | nil =>
      rw [List.map_singleton, String.intercalate_singleton]
      exact .single t
    | cons u ts =>
      rw [List.map_cons, List.map_cons, String.intercalate_cons_cons, String.toList_append,
        String.toList_append, ← List.map_cons]
      exact .cons (.blank (by decide)) ih

theorem rendered_eq_of_content {ts us : List Token}
    (h : ts.map Token.content = us.map Token.content) : rendered ts = rendered us := by
  rw [rendered, rendered]
  congr 1
  induction ts generalizing us with
  | nil =>
    rw [List.map_nil, eq_comm, List.map_eq_nil_iff] at h
    rw [h]
  | cons t ts ih =>
    cases us with
    | nil => simp at h
    | cons u us =>
      rw [List.map_cons, List.map_cons, List.cons.injEq] at h
      obtain ⟨hkind, htext⟩ := Prod.mk.inj h.1
      have hend : t.isEndOfFile = u.isEndOfFile := by rw [Token.isEndOfFile, hkind]; rfl
      have hwritten : t.written = u.written := by rw [Token.written, Token.written, hkind, htext]
      rw [List.filter_cons, List.filter_cons, hend]
      split
      · rw [List.map_cons, List.map_cons, hwritten, ih h.2]
      · exact ih h.2

theorem sameKinds_of_content {ts us : List Token}
    (h : ts.map Token.content = us.map Token.content) : sameKinds ts us := by
  have hkinds := congrArg (List.map Prod.fst) h
  rw [List.map_map, List.map_map] at hkinds
  rw [sameKinds, beq_iff_eq]
  exact hkinds

/-! ### Reading what was written -/

theorem answer_of_spaced {ts : List Token} {text : List Char} (htext : Token.Spaced ts text)
    (hts : ∀ t ∈ ts, t.Produced ∧ t.isEndOfFile = false) :
    ∃ stream, (tokenize .failFast text).answer = .ok stream ∧
      stream.tokens.map Token.content = ts.map Token.content ++ [(.endOfFile, "")] := by
  obtain ⟨hfaults, htokens⟩ :=
    Cursor.readsAs_of_spaced (c := .ofSource text) htext hts (.inl rfl) rfl
  exact ⟨_, answer_failFast_eq_ok_iff.2 ⟨hfaults, rfl⟩, htokens⟩

/-- Tokens that readers produced, written with separators between them, are read as themselves;
so the tokens of a source, written with one space between them, are written the same way again. -/
theorem tokenize_spaced :
    (∀ (ts : List Token) (text : List Char), (∀ t ∈ ts, t.Produced ∧ t.isEndOfFile = false) →
      Token.Spaced ts text → ∃ stream, (tokenize .failFast text).answer = .ok stream ∧
        stream.tokens.map Token.content = ts.map Token.content ++ [(.endOfFile, "")]) ∧
    ∀ (source : List Char) (stream : TokenStream), (tokenize .failFast source).answer = .ok stream →
      ∃ again, (tokenize .failFast (rendered stream.tokens).toList).answer = .ok again ∧
        sameKinds again.tokens stream.tokens ∧ rendered again.tokens = rendered stream.tokens := by
  constructor
  · intro ts text hts htext
    exact answer_of_spaced htext hts
  · intro source stream h
    have hts : ∀ t ∈ stream.tokens.filter (fun t => !t.isEndOfFile),
        t.Produced ∧ t.isEndOfFile = false := by
      intro t ht
      rw [List.mem_filter, Bool.not_eq_true'] at ht
      exact ⟨Token.produced_of_answer h ht.1 ht.2, ht.2⟩
    obtain ⟨again, hagain, htokens⟩ := answer_of_spaced (Token.spaced_rendered stream.tokens) hts
    have hsame : again.tokens.map Token.content = stream.tokens.map Token.content := by
      obtain ⟨-, rfl⟩ := answer_failFast_eq_ok_iff.1 h
      rw [htokens, ← Cursor.tokens_block_none]
    exact ⟨again, hagain, sameKinds_of_content hsame, rendered_eq_of_content hsame⟩

end SqlScan
