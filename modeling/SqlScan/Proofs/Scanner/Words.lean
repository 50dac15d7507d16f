import SqlScan.Proofs.NameTokens
import SqlScan.Proofs.Scanner.Restarts

/-!
# What a word is read as

A source that is one word is read as one token, and what the word spells decides of which kind it is:
a literal, a keyword that the table has, or a name.
-/

namespace SqlScan

/-- What a word is by its spelling, the case of ASCII letters apart. -/
def Word.kindOf (word : List Char) : TokenKind :=
  if Text.lower word = "true".toList then .literal (.boolean true)
  else if Text.lower word = "false".toList then .literal (.boolean false)
  else if Text.lower word = "null".toList then .literal .null
  else (Keyword.lookup? word).elim .name .keyword

namespace Word

variable {word : List Char}

theorem kindOf_eq (word : List Char) : kindOf word =
    (Literal.ofWord? word).elim ((Keyword.ofWord? word).elim .name .keyword) .literal := by
  rw [kindOf, Literal.ofWord?_eq, Keyword.lookup?_eq_ofWord?]
  split_ifs <;> rfl

theorem ofWord_eq (word : List Char) :
    Lexeme.ofWord word [] = ⟨[], word, [], .token (kindOf word)⟩ := by
  rw [kindOf_eq]
  cases hliteral : Literal.ofWord? word with
  | some value =>
    rw [Lexeme.ofWord, hliteral]
    rfl
  | none =>
    cases hkeyword : Keyword.ofWord? word with
    | some k =>
      rw [Lexeme.ofWord, hliteral, hkeyword]
      rfl
    | none =>
      have hcontinuation : Name.continuation [] = .complete [] [] :=
        Name.continuation_of_head (by simp)
      have htext : word ++ Name.continued [] = word := List.append_nil word
      rw [Lexeme.ofWord, hliteral, hkeyword]
      simp only [Lexeme.ofName, hcontinuation, Segment.text, htext]
      rfl

theorem IsWord.read (h : IsWord word) :
    Lexeme.read word = ⟨[], word, [], .token (kindOf word)⟩ := by
  obtain ⟨c, cs, rfl, hstart, hpart⟩ := h
  obtain ⟨hblank, hline, hblock⟩ := not_gap_of_isStart hstart
  have hgap := Gap.read_of_head hblank hline hblock cs
  have htake : cs.takeWhile isPart = cs := List.takeWhile_eq_self_iff.2 hpart
  have hdrop : cs.dropWhile isPart = [] := List.dropWhile_eq_nil_iff.2 hpart
  rw [(Lexeme.read_of_clear hgap).1, Lexeme.front, Lexeme.ofChar_start hstart, htake, hdrop,
    ofWord_eq]
  rfl

end Word

/-- A word is a literal, a keyword, or a name that is no reserved word. -/
theorem Word.kindOf_cases {motive : TokenKind → Prop} {word : List Char}
    (boolean : ∀ value, motive (.literal (.boolean value))) (null : motive (.literal .null))
    (keyword : ∀ k, Keyword.lookup? word = some k → motive (.keyword k))
    (name : isReserved word = false → motive .name) : motive (kindOf word) := by
  have hliteral := Literal.ofWord?_eq word
  unfold kindOf
  split_ifs with htrue hfalse hnull
  · exact boolean true
  · exact boolean false
  · exact null
  · rw [if_neg htrue, if_neg hfalse, if_neg hnull] at hliteral
    cases hkeyword : Keyword.lookup? word with
    | some k => exact keyword k hkeyword
    | none =>
      rw [Keyword.lookup?_eq_ofWord?] at hkeyword
      exact name (by simp [isReserved, hliteral, hkeyword])

/-- The token of a source that is one word. -/
def Token.ofWord (word : List Char) : Token :=
  ⟨String.ofList word, Word.kindOf word, ⟨0, Text.size word⟩, ⟨1, 1⟩⟩

namespace Word.IsWord

variable {word : List Char}

theorem tokens_block_none (h : IsWord word) :
    ((Cursor.ofSource word).block none).faults = [] ∧
      ((Cursor.ofSource word).block none).tokens = [Token.ofWord word,
        .endOfFile ⟨Text.size word, Text.size word⟩ (Location.origin.after word)] := by
  have hkind : (kindOf word == .endOfFile) = false :=
    kindOf_cases (motive := fun kind => (kind == .endOfFile) = false)
      (fun _ => rfl) rfl (fun _ _ => rfl) (fun _ => rfl)
  have htext : (kindOf word).textOf word = String.ofList word :=
    kindOf_cases (motive := fun kind => kind.textOf word = String.ofList word)
      (fun _ => rfl) rfl (fun _ _ => rfl) (fun _ => rfl)
  rw [Cursor.block_none_of_read h.read hkind, htext, Mark.origin_after_offset, Mark.location_after]
  exact ⟨rfl, rfl⟩

theorem name?_ofWord (h : IsWord word) (hkind : kindOf word = .name) :
    (Token.ofWord word).name? = some (String.ofList word) := by
  have hfree : kindOf word = .name → isReserved word = false :=
    kindOf_cases (motive := fun kind => kind = .name → isReserved word = false)
      (fun _ => nofun) nofun (fun _ _ => nofun) (fun hfree _ => hfree)
  have hquotes := Token.unquoted_text (s := .bare word) ⟨h, hfree hkind⟩
  rw [Segment.text, Segment.name] at hquotes
  simp only [Token.ofWord, Token.name?, hkind, String.toList_ofList, hquotes]

end Word.IsWord

/-- A word is looked up as a keyword if and only if it is spelled like it, the case of ASCII letters
apart, and so for one keyword at most; a word with another character than ASCII is none. A source
that is a word is read without a fault as one token with its text, and then there is the end: a
literal if it is spelled like one, a keyword if it is looked up as one, and otherwise a name, which
is the word. -/
theorem words_read_exactly :
    (∀ word k, Keyword.lookup? word = some k ↔ Text.lower word = Text.lower k.spelling.toList) ∧
    (∀ word (k k' : Keyword), Text.lower word = Text.lower k.spelling.toList →
      Text.lower word = Text.lower k'.spelling.toList → k = k') ∧
    (∀ word, ∀ c ∈ word, 0x80 ≤ c.toNat → Keyword.lookup? word = none ∧
      ∀ k : Keyword, Text.lower word ≠ Text.lower k.spelling.toList) ∧
    (∀ word, Keyword.lookup? word = Keyword.ofWord? word) ∧
    ∀ word, Word.IsWord word → ∀ limit,
      let tokens := [Token.ofWord word,
        .endOfFile ⟨Text.size word, Text.size word⟩ (Location.origin.after word)]
      (tokenize ⟨.failFast, limit⟩ word).answer = .ok ⟨tokens, []⟩ ∧
      (Location.origin.counts word → ∃ log last,
        (Scanner.ofSource ⟨.failFast, limit⟩ word).strict = some (.ok tokens, log, last)) ∧
      (Word.kindOf word = .name → (Token.ofWord word).name? = some (String.ofList word)) := by
  refine ⟨?lookup, ?unique, ?ascii, ?table, ?words⟩
  case lookup => exact fun word k => Keyword.lookup?_eq_some_iff
  case unique =>
    intro word k k' h h'
    rw [← Keyword.lookup?_eq_some_iff] at h h'
    exact Option.some.inj (h.symm.trans h')
  case ascii =>
    intro word c hc hlarge
    have hnone : Keyword.lookup? word = none := by
      apply Keyword.lookup?_of_not_isAscii hc
      rw [Keyword.isAscii, decide_eq_false_iff_not]
      omega
    refine ⟨hnone, fun k hk => ?_⟩
    rw [Keyword.lookup?_eq_some_iff.2 hk] at hnone
    cases hnone
  case table => exact Keyword.lookup?_eq_ofWord?
  case words =>
    intro word hword limit tokens
    obtain ⟨hfaults, htokens⟩ := hword.tokens_block_none
    refine ⟨?_, ?_, hword.name?_ofWord⟩
    · exact answer_failFast_eq_ok_iff.2 ⟨hfaults, by rw [htokens]⟩
    · intro hcounts
      exact Scanner.exists_strict_iff.2
        ⟨hcounts, Cursor.strict_answer_eq_ok_iff.2 ⟨hfaults, htokens.symm⟩⟩

/-- A keyword in mixed case, and a name with the long s, which has the capital S elsewhere. -/
theorem words_read_exactly_long_s :
    let word := ['A', 'ſ']
    Keyword.lookup? ['A', 's'] = some .AS ∧ Keyword.lookup? word = none ∧
      (tokenize .failFast word).answer = .ok ⟨[Token.ofWord word,
        .endOfFile ⟨Text.size word, Text.size word⟩ (Location.origin.after word)], []⟩ ∧
      (Token.ofWord word).name? = some (String.ofList word) := by
  intro word
  obtain ⟨hlookup, -, hascii, -, hwords⟩ := words_read_exactly
  have hpart : Word.isPart 'ſ' := by decide +kernel
  have hword : Word.IsWord word :=
    ⟨'A', ['ſ'], rfl, by decide, List.forall_mem_singleton.2 hpart⟩
  obtain ⟨hanswer, -, hname⟩ := hwords word hword none
  have hnone := hascii word 'ſ' (by decide) (by decide)
  exact ⟨(hlookup _ .AS).2 (by decide), hnone.1, hanswer, hname (by decide +kernel)⟩

end SqlScan
