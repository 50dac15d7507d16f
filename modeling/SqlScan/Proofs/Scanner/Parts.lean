import SqlScan.Proofs.Extent
import SqlScan.Proofs.Scanner.Moves
import SqlScan.Proofs.Words

/-!
# The loops of a scanner

A loop goes over the text ahead and stops where reading that text says: behind a gap, behind a closing
quote, behind the last segment of a name. Each loop is told here in one equation: how far it moves, if
the text can be counted so far, and what it answers.
-/

namespace SqlScan

/-! ### Gaps -/

namespace Gap

/-- The text of a block comment ahead, to its end or to the end of the source. -/
def comment (text : List Char) : List Char := (closing? text).elim text Prod.fst

theorem comment_cons {c : Char} {rest : List Char}
    (h : ∀ after, c = '*' → rest = '/' :: after → False) : comment (c :: rest) = c :: comment rest := by
  rw [comment, comment, closing?]
  · cases closing? rest <;> rfl
  · exact h

theorem isSome_closing?_cons {c : Char} {rest : List Char}
    (h : ∀ after, c = '*' → rest = '/' :: after → False) :
    (closing? (c :: rest)).isSome = (closing? rest).isSome := by
  rw [closing?, Option.isSome_map]
  exact h

/-- The text gone over until a gap ends. -/
def Ending.passed : Ending → List Char
  | .clear gap _ => gap
  | .unclosed gap comment => gap ++ comment

/-- The fault at the end of a gap that begins at a mark. -/
def Ending.fault? (mark : Mark) : Ending → Option Fault
  | .clear _ _ => none
  | .unclosed gap comment =>
    some ⟨.unterminatedComment, snippet comment,
      (mark.after gap).spanTo ((mark.after gap).after comment), (mark.after gap).location⟩

theorem Ending.passed_after (front : List Char) (e : Ending) :
    (e.after front).passed = front ++ e.passed := by
  cases e with
  | clear => rfl
  | unclosed gap comment => exact List.append_assoc front gap comment

theorem Ending.fault?_after (mark : Mark) (front : List Char) (e : Ending) :
    (e.after front).fault? mark = e.fault? (mark.after front) := by
  cases e with
  | clear => rfl
  | unclosed gap comment => simp only [after, fault?, Mark.after_append]

theorem read_blanks (text : List Char) :
    read text = (read (text.dropWhile Text.isBlank)).after (text.takeWhile Text.isBlank) := by
  induction text with
  | nil => simp [read, Ending.after]
  | cons c cs ih =>
    by_cases hblank : Text.isBlank c
    · rw [List.dropWhile_cons_of_pos hblank, List.takeWhile_cons_of_pos hblank, read_blank hblank, ih,
        after_after]
      rfl
    · rw [List.dropWhile_cons_of_neg hblank, List.takeWhile_cons_of_neg hblank]
      cases read (c :: cs) <;> rfl

theorem pair_prefix_iff {c d : Char} {text : List Char} :
    [c, d] <+: text ↔ text.head? = some c ∧ text.tail.head? = some d := by
  cases text with
  | nil => simp
  | cons e more => cases more <;> simp [List.cons_prefix_cons, eq_comm]

end Gap

namespace Scanner

variable {α : Type} {s : Scanner} {c quote : Char} {taken ahead rest : List Char}

theorem Took.closeComment (h : s.Took taken ahead) :
    s.closeComment = s.checked (Gap.comment ahead)
      ((Gap.closing? ahead).isSome, s.moved (Gap.comment ahead)) := by
  induction ahead using Gap.closing?.induct generalizing s taken with
  | case1 =>
    rw [Scanner.closeComment, h.advance_nil]
    rfl
  | case2 rest =>
    rw [Scanner.closeComment, h.advance_cons]
    refine checked_bind ['*'] ['/'] ?_
    dsimp only
    rw [if_pos rfl, h.moved_cons.eat_cons]
    exact checked_bind_some (by rw [moved_moved]; rfl)
  | case3 c rest hopen ih =>
    have hrest := ih h.moved_cons
    have hagain := h.goOn h.moved_cons [c] rfl (by simp) (s.moved [c]).closeComment
    rw [moved_moved] at hrest
    rw [Gap.comment_cons hopen, Gap.isSome_closing?_cons hopen, Scanner.closeComment, h.advance_cons]
    refine checked_bind [c] (Gap.comment rest) ?_
    dsimp only
    split
    · rename_i hstar
      have hslash : rest.head? ≠ some '/' := by
        intro hhead
        obtain ⟨after, rfl⟩ := List.head?_eq_some_iff.1 hhead
        exact hopen after hstar rfl
      rw [h.moved_cons.eat_of_ne hslash]
      exact hagain.trans hrest
    · exact hagain.trans hrest

theorem Took.skipComment (h : s.Took taken ('/' :: '*' :: rest)) :
    s.skipComment = s.checked ('/' :: '*' :: Gap.comment rest)
      ((Gap.closing? rest).isSome, s.moved ('/' :: '*' :: Gap.comment rest)) := by
  rw [Scanner.skipComment, h.advance_cons]
  refine checked_bind ['/'] ('*' :: Gap.comment rest) ?_
  dsimp only
  rw [h.moved_cons.advance_cons]
  refine checked_bind ['*'] (Gap.comment rest) ?_
  dsimp only
  rw [h.moved_cons.moved_cons.closeComment, moved_moved, moved_moved]
  rfl

section Rounds

variable {blanks text more : List Char} {r : Option Fault × Scanner}

/-- A line comment behind blanks is moved over, and then the rest of the gap. -/
theorem Took.skipGap_line {line : List Char} (h : s.Took taken (blanks ++ '-' :: '-' :: rest))
    (hblanks : (blanks ++ '-' :: '-' :: rest).takeWhile Text.isBlank = blanks)
    (hline : rest.takeWhile (· != '\n') = line)
    (hrest : (s.moved (blanks ++ '-' :: '-' :: line)).skipGap
      = (s.moved (blanks ++ '-' :: '-' :: line)).checked more r) :
    s.skipGap = s.checked (blanks ++ '-' :: '-' :: line ++ more) r := by
  have hcomment : ('-' :: '-' :: rest).takeWhile (· != '\n') = '-' :: '-' :: line := by
    simp [hline]
  have hbehind : blanks ++ '-' :: '-' :: line ++ rest.dropWhile (· != '\n')
      = blanks ++ '-' :: '-' :: rest := by
    simp [← hline, List.takeWhile_append_dropWhile]
  rw [Scanner.skipGap, h.eatWhile, hblanks, List.append_assoc]
  refine checked_bind _ _ ?_
  rw [h.moved.peek, h.moved.peekNext, Option.bind_eq_bind, Option.bind_some, Option.bind_some,
    if_pos ⟨rfl, rfl⟩, h.moved.eatWhile, hcomment]
  refine checked_bind _ _ ?_
  rw [moved_moved, h.goOn (h.moved_of_eq hbehind) _ hbehind (by simp)]
  exact hrest

/-- A block comment behind blanks is moved over, and then the rest of the gap. -/
theorem Took.skipGap_block {comment after : List Char}
    (h : s.Took taken (blanks ++ '/' :: '*' :: rest))
    (hblanks : (blanks ++ '/' :: '*' :: rest).takeWhile Text.isBlank = blanks)
    (hclosing : Gap.closing? rest = some (comment, after))
    (hrest : (s.moved (blanks ++ '/' :: '*' :: comment)).skipGap
      = (s.moved (blanks ++ '/' :: '*' :: comment)).checked more r) :
    s.skipGap = s.checked (blanks ++ '/' :: '*' :: comment ++ more) r := by
  have hbehind : blanks ++ '/' :: '*' :: comment ++ after = blanks ++ '/' :: '*' :: rest := by
    simp [Gap.append_of_closing? hclosing]
  have hline : ¬ (some '/' = some '-' ∧ some '*' = some '-') := by decide
  rw [Scanner.skipGap, h.eatWhile, hblanks, List.append_assoc]
  refine checked_bind _ _ ?_
  rw [h.moved.peek, h.moved.peekNext, Option.bind_eq_bind, Option.bind_some, Option.bind_some,
    List.head?_cons, List.tail_cons, List.head?_cons, if_neg hline, if_pos ⟨rfl, rfl⟩,
    h.moved.skipComment, Gap.comment, hclosing]
  refine checked_bind _ _ ?_
  dsimp only [Option.isSome_some, Option.elim_some]
  rw [if_pos rfl, moved_moved, h.goOn (h.moved_of_eq hbehind) _ hbehind (by simp)]
  exact hrest

/-- A block comment that nothing closes is a fault up to the end of the source. -/
theorem Took.skipGap_of_unclosed (h : s.Took taken (blanks ++ '/' :: '*' :: rest))
    (hblanks : (blanks ++ '/' :: '*' :: rest).takeWhile Text.isBlank = blanks)
    (hclosing : Gap.closing? rest = none) :
    s.skipGap = s.checked (blanks ++ '/' :: '*' :: rest)
      ((Gap.Ending.unclosed blanks ('/' :: '*' :: rest)).fault? s.mark,
        s.moved (blanks ++ '/' :: '*' :: rest)) := by
  have hline : ¬ (some '/' = some '-' ∧ some '*' = some '-') := by decide
  have hwhole : (s.moved blanks).Took (taken ++ blanks) ('/' :: '*' :: rest ++ []) := by
    rw [List.append_nil]
    exact h.moved
  rw [Scanner.skipGap, h.eatWhile, hblanks]
  refine checked_bind _ _ ?_
  rw [h.moved.peek, h.moved.peekNext, Option.bind_eq_bind, Option.bind_some, Option.bind_some,
    List.head?_cons, List.tail_cons, List.head?_cons, if_neg hline, if_pos ⟨rfl, rfl⟩,
    h.moved.skipComment, Gap.comment, hclosing]
  refine checked_bind_some ?_
  dsimp only [Option.isSome_none, Option.elim_none]
  rw [if_neg Bool.false_ne_true, hwhole.faultFrom_moved, moved_moved]
  rfl

/-- A gap ends behind blanks that no comment follows. -/
theorem Took.skipGap_of_clear (h : s.Took taken (blanks ++ text))
    (hblanks : (blanks ++ text).takeWhile Text.isBlank = blanks)
    (hline : ¬ ['-', '-'] <+: text) (hblock : ¬ ['/', '*'] <+: text) :
    s.skipGap = s.checked blanks (none, s.moved blanks) := by
  rw [Gap.pair_prefix_iff] at hline hblock
  rw [Scanner.skipGap, h.eatWhile, hblanks]
  refine checked_bind_some ?_
  rw [h.moved.peek, h.moved.peekNext, Option.bind_eq_bind, Option.bind_some, Option.bind_some,
    if_neg hline, if_neg hblock]
  rfl

end Rounds

/-- A gap is moved over in rounds: blanks, and then a comment, if there is one. -/
theorem Took.skipGap (h : s.Took taken ahead) :
    s.skipGap = s.checked (Gap.read ahead).passed
      ((Gap.read ahead).fault? s.mark, s.moved (Gap.read ahead).passed) := by
  induction hlength : ahead.length using Nat.strong_induction_on generalizing s taken ahead with
  | h n ih =>
  subst hlength
  have hsplit := List.takeWhile_append_dropWhile (p := Text.isBlank) (l := ahead)
  have hhead := Text.head_dropWhile Text.isBlank ahead
  have hblanks : (ahead.takeWhile Text.isBlank ++ ahead.dropWhile Text.isBlank).takeWhile Text.isBlank
      = ahead.takeWhile Text.isBlank := by
    rw [hsplit]
  rw [Gap.read_blanks, Gap.Ending.passed_after, Gap.Ending.fault?_after]
  generalize ahead.takeWhile Text.isBlank = blanks at hsplit hblanks ⊢
  generalize ahead.dropWhile Text.isBlank = text at hsplit hblanks hhead ⊢
  subst hsplit
  -- the rest behind a round is shorter by the comment at least
  have hround {comment rest : List Char} (hcomment : comment ++ rest = text) (hne : comment ≠ []) :
      (s.moved (blanks ++ comment)).skipGap =
        (s.moved (blanks ++ comment)).checked (Gap.read rest).passed
          ((Gap.read rest).fault? ((s.mark.after blanks).after comment),
            s.moved (blanks ++ comment ++ (Gap.read rest).passed)) := by
    have hbehind : blanks ++ comment ++ rest = blanks ++ text := by
      rw [List.append_assoc, hcomment]
    have hpos := List.length_pos_iff.2 hne
    have hless : rest.length < (blanks ++ text).length := by
      rw [← hbehind, List.length_append, List.length_append]
      omega
    have hrest := ih _ hless (h.moved_of_eq hbehind) rfl
    rwa [mark_moved, Mark.after_append, moved_moved] at hrest
  by_cases hline : ['-', '-'] <+: text
  · obtain ⟨rest, htext⟩ := hline
    obtain rfl : text = '-' :: '-' :: rest := htext.symm
    have hcomment : '-' :: '-' :: rest.takeWhile (· != '\n') ++ rest.dropWhile (· != '\n')
        = '-' :: '-' :: rest := by
      simp [List.takeWhile_append_dropWhile]
    rw [Gap.read, Gap.Ending.passed_after, Gap.Ending.fault?_after, ← List.append_assoc blanks]
    exact h.skipGap_line hblanks rfl (hround hcomment (by simp))
  by_cases hblock : ['/', '*'] <+: text
  · obtain ⟨rest, htext⟩ := hblock
    obtain rfl : text = '/' :: '*' :: rest := htext.symm
    cases hclosing : Gap.closing? rest with
    | some found =>
      obtain ⟨comment, after⟩ := found
      have hcomment : '/' :: '*' :: comment ++ after = '/' :: '*' :: rest := by
        simp [Gap.append_of_closing? hclosing]
      rw [Gap.read_of_closing? hclosing, Gap.Ending.passed_after, Gap.Ending.fault?_after,
        ← List.append_assoc blanks]
      exact h.skipGap_block hblanks hclosing (hround hcomment (by simp))
    | none =>
      rw [Gap.read_of_closing?_eq_none hclosing]
      exact h.skipGap_of_unclosed hblanks hclosing
  have hnone : ∀ c ∈ text.head?, ¬ Text.isBlank c := fun c hc => by simp [hhead c hc]
  rw [Gap.read_eq_clear_nil_iff.2 ⟨hnone, hline, hblock⟩]
  show s.skipGap = s.checked (blanks ++ []) (none, s.moved (blanks ++ []))
  rw [List.append_nil]
  exact h.skipGap_of_clear hblanks hline hblock

/-! ### Quotes -/

/-- A value as it is written is moved over, and added to the value before. -/
theorem Took.closeQuote_encode {opening : Mark} {before value more : List Char}
    {r : Except Fault (List Char) × Scanner} (h : s.Took taken (Quoted.encode quote value ++ ahead))
    (hrest : (s.moved (Quoted.encode quote value)).closeQuote quote opening (before ++ value)
      = (s.moved (Quoted.encode quote value)).checked more r) :
    s.closeQuote quote opening before = s.checked (Quoted.encode quote value ++ more) r := by
  induction value generalizing s taken before with
  | nil => simpa [Quoted.encode] using hrest
  | cons c cs ih =>
    by_cases hc : c = quote
    · subst hc
      have hencode : Quoted.encode c (c :: cs) = c :: c :: Quoted.encode c cs := by
        rw [Quoted.encode, if_pos rfl]
      rw [hencode] at h hrest ⊢
      rw [Scanner.closeQuote, h.advance_cons]
      refine checked_bind [c] (c :: (Quoted.encode c cs ++ more)) ?_
      dsimp only
      rw [if_pos rfl, h.moved_cons.eat_cons]
      refine checked_bind [c] (Quoted.encode c cs ++ more) ?_
      dsimp only
      rw [if_pos rfl]
      rw [h.goOn h.moved_cons.moved_cons [c, c] rfl (by simp)]
      apply ih h.moved_cons.moved_cons
      simpa using hrest
    · have hencode : Quoted.encode quote (c :: cs) = c :: Quoted.encode quote cs := by
        rw [Quoted.encode, if_neg hc]
      rw [hencode] at h hrest ⊢
      rw [Scanner.closeQuote, h.advance_cons]
      refine checked_bind [c] (Quoted.encode quote cs ++ more) ?_
      dsimp only
      rw [if_neg hc, h.goOn h.moved_cons [c] rfl (by simp)]
      apply ih h.moved_cons
      simpa using hrest

theorem Took.closeQuote_of_read? {opening : Mark} {value : List Char} (h : s.Took taken ahead)
    (hread : Quoted.read? quote ahead = some (value, rest)) :
    s.closeQuote quote opening [] = s.checked (Quoted.encode quote value ++ [quote])
      (.ok value, s.moved (Quoted.encode quote value ++ [quote])) := by
  rw [Quoted.eq_encode_of_read? hread] at h
  apply h.closeQuote_encode
  have hend := h.moved
  rw [Scanner.closeQuote, hend.advance_cons]
  refine checked_bind_some ?_
  dsimp only
  rw [if_pos rfl, hend.moved_cons.eat_of_ne (Quoted.head?_of_read? hread), moved_moved]
  rfl

theorem Took.closeQuote_of_unclosed {front part : List Char} (h : s.Took (front ++ part) ahead)
    (hread : Quoted.read? quote ahead = none) :
    s.closeQuote quote (s.start.after front) [] = s.checked ahead
      (.error ⟨.unterminatedString, SqlScan.snippet (part ++ ahead),
        (s.start.after front).spanTo (s.mark.after ahead), (s.start.after front).location⟩,
        s.moved ahead) := by
  obtain ⟨value, rfl⟩ := Quoted.exists_encode_of_read? hread
  have hall : s.Took (front ++ part) (Quoted.encode quote value ++ []) := by
    rwa [List.append_nil]
  have hend := hall.moved
  rw [List.append_assoc] at hend
  rw [← List.append_nil (Quoted.encode quote value)]
  apply hall.closeQuote_encode
  rw [Scanner.closeQuote, List.append_nil, hend.advance_nil]
  show (Scanner.faultFrom _ _ _ >>= _) = _
  rw [← start_moved s (Quoted.encode quote value), hend.faultFrom]
  rfl

end Scanner

/-! ### Names -/

namespace Name.Continuation

/-- The text gone over until a name ends. -/
def passed : Continuation → List Char
  | .complete segments _ => continued segments
  | .unclosed segments quoted => continued segments ++ '.' :: quoted

/-- The name that was taken so far with the segments behind it, or the fault at a quote that nothing
closes. -/
def item (start mark : Mark) (taken : List Char) (names : List String) : Continuation → Item
  | .complete segments _ =>
    .token ⟨String.ofList (taken ++ continued segments),
      .ofSegments (names ++ segments.map Segment.name),
      start.spanTo (mark.after (continued segments)), start.location⟩
  | .unclosed segments quoted =>
    let opening := mark.after (continued segments ++ ['.'])
    .fault ⟨.unterminatedString, snippet quoted, opening.spanTo (opening.after quoted),
      opening.location⟩

theorem passed_cons (s : Segment) (k : Continuation) :
    (k.cons s).passed = '.' :: s.text ++ k.passed := by
  cases k <;> simp [cons, passed, continued]

theorem item_cons (start mark : Mark) (taken : List Char) (names : List String) (s : Segment)
    (k : Continuation) :
    (k.cons s).item start mark taken names =
      k.item start (mark.after ('.' :: s.text)) (taken ++ '.' :: s.text) (names ++ [s.name]) := by
  cases k <;> simp [cons, item, continued, Mark.after_append]

end Name.Continuation

theorem Text.indexOf?_eq (wanted : Char → Bool) (cs : List Char) :
    indexOf? wanted cs = if (cs.dropWhile fun c => !wanted c).isEmpty then none
      else some (size (cs.takeWhile fun c => !wanted c)) := by
  induction cs with
  | nil => rfl
  | cons c cs ih =>
    rw [indexOf?]
    by_cases hc : wanted c
    · simp [hc]
    · rw [if_neg hc, ih, List.dropWhile_cons_of_pos (by simpa using hc),
        List.takeWhile_cons_of_pos (by simpa using hc)]
      split <;> rfl

namespace Scanner

variable {s : Scanner} {c : Char} {taken ahead : List Char} {names : List String}

theorem Took.answerName (h : s.Took taken ahead) (hdot : 1 < names.length → '.' ∈ taken) :
    s.answerName names
      = some ((Name.Continuation.complete [] ahead).item s.start s.mark taken names, s) := by
  have hpath : ¬ (1 < names.length ∧ !(String.ofList taken).toList.contains '.') := by
    rintro ⟨hmany, hnone⟩
    simp [hdot hmany] at hnone
  rw [Scanner.answerName, h.taken_eq, Option.bind_eq_bind, Option.bind_some, Token.ofSegments?,
    if_neg hpath]
  simp [Name.Continuation.item, Name.continued]

/-- The word behind a dot is looked up by its offsets and not moved over. -/
theorem Took.wordAt (h : s.Took taken ('.' :: ahead)) :
    s.wordAt (s.position + 1) = some (ahead.takeWhile Word.isPart,
      s.position + Text.size ('.' :: ahead.takeWhile Word.isPart)) := by
  have hdot : Text.size ['.'] = 1 := rfl
  have hpart : (fun c => !!Word.isPart c) = Word.isPart := funext fun c => Bool.not_not _
  have hword := List.takeWhile_append_dropWhile (p := Word.isPart) (l := ahead)
  have hpoint : s.Took taken (['.'] ++ ahead) := h
  have hparts : s.Took taken
      (['.'] ++ ahead.takeWhile Word.isPart ++ ahead.dropWhile Word.isPart) := by
    rwa [List.append_assoc, hword]
  have hbehind := hpoint.textFrom_after
  have hbetween := hparts.textBetween_ahead
  rw [hdot] at hbehind hbetween
  have hlast : (Text.indexOf? (fun c => !Word.isPart c) ahead).elim (Text.size s.source)
      (s.position + 1 + ·) = s.position + Text.size ('.' :: ahead.takeWhile Word.isPart) := by
    have hcons : Text.size ('.' :: ahead.takeWhile Word.isPart)
        = 1 + Text.size (ahead.takeWhile Word.isPart) := rfl
    rw [Text.indexOf?_eq, hpart, h.size_source]
    split
    · rename_i hend
      rw [List.isEmpty_iff.1 hend, List.append_nil] at hword
      rw [hword]
      rfl
    · rw [hcons, ← Nat.add_assoc]
      rfl
  rw [Scanner.wordAt, hbehind]
  show (s.textBetween (s.position + 1) _ >>= _) = _
  rw [hlast]
  show (s.textBetween _ (s.position + Text.size (['.'] ++ _)) >>= _) = _
  rw [hbetween]
  rfl

/-- A quoted segment behind a dot is moved over, and then the rest of the name. -/
theorem Took.scanName_quoted {body value rest more : List Char} {r : Item × Scanner}
    (h : s.Took taken ('.' :: '"' :: body)) (hread : Quoted.read? '"' body = some (value, rest))
    (hrest : (s.moved ('.' :: Quoted.text '"' value)).scanName (names ++ [String.ofList value])
      = (s.moved ('.' :: Quoted.text '"' value)).checked more r) :
    s.scanName names = s.checked ('.' :: Quoted.text '"' value ++ more) r := by
  have hsegment : '.' :: Quoted.text '"' value ++ rest = '.' :: '"' :: body :=
    congrArg ('.' :: ·) (Quoted.text_append_of_read? hread)
  have htext : ['.'] ++ (['"'] ++ (Quoted.encode '"' value ++ ['"']))
      = '.' :: Quoted.text '"' value := rfl
  rw [Scanner.scanName, h.peek, h.peekNext]
  simp only [List.head?_cons, List.tail_cons, Option.bind_eq_bind, Option.bind_some, if_pos]
  rw [h.advance_cons]
  refine checked_bind ['.'] ('"' :: (Quoted.encode '"' value ++ ['"']) ++ more) ?_
  rw [h.moved_cons.advance_cons]
  refine checked_bind ['"'] (Quoted.encode '"' value ++ ['"'] ++ more) ?_
  rw [h.moved_cons.moved_cons.closeQuote_of_read? hread]
  refine checked_bind _ _ ?_
  dsimp only
  rw [moved_moved, moved_moved, htext, h.goOn (h.moved_of_eq hsegment) _ hsegment (by simp)]
  exact hrest

/-- A quote behind a dot that nothing closes is a fault from the quote to the end of the source. -/
theorem Took.scanName_of_unclosed {body : List Char} (h : s.Took taken ('.' :: '"' :: body))
    (hread : Quoted.read? '"' body = none) :
    s.scanName names = s.checked ('.' :: '"' :: body)
      ((Name.Continuation.unclosed [] ('"' :: body)).item s.start s.mark taken names,
        s.moved ('.' :: '"' :: body)) := by
  have hopened := h.moved_cons
  have hfault := hopened.moved_cons.closeQuote_of_unclosed hread
  rw [start_moved, ← hopened.mark_eq] at hfault
  rw [Scanner.scanName, h.peek, h.peekNext]
  simp only [List.head?_cons, List.tail_cons, Option.bind_eq_bind, Option.bind_some, if_pos]
  rw [h.advance_cons]
  refine checked_bind ['.'] ('"' :: body) ?_
  dsimp only
  rw [hopened.advance_cons]
  refine checked_bind ['"'] body ?_
  dsimp only
  rw [hfault]
  refine checked_bind_some ?_
  simp [Name.Continuation.item, Name.continued]

/-- A word behind a dot that is not reserved is moved over, and then the rest of the name. -/
theorem Took.scanName_bare {cs word more : List Char} {r : Item × Scanner}
    (h : s.Took taken ('.' :: c :: cs)) (hquote : c ≠ '"') (hstart : Word.isStart c)
    (hword : (c :: cs).takeWhile Word.isPart = word) (hreserved : Word.isReserved word = false)
    (hrest : (s.moved ('.' :: word)).scanName (names ++ [String.ofList word])
      = (s.moved ('.' :: word)).checked more r) :
    s.scanName names = s.checked ('.' :: word ++ more) r := by
  have hsplit : '.' :: word ++ (c :: cs).dropWhile Word.isPart = '.' :: c :: cs := by
    rw [← hword, List.cons_append, List.takeWhile_append_dropWhile]
  rw [Scanner.scanName, h.peek, h.peekNext]
  simp only [List.head?_cons, List.tail_cons, Option.bind_eq_bind, Option.bind_some, if_pos,
    if_neg hquote, if_pos hstart]
  rw [h.wordAt, hword]
  simp only [Option.bind_some, isReserved_eq, hreserved]
  rw [← hsplit] at h
  rw [h.advanceTo]
  refine checked_bind _ _ ?_
  rw [h.goOn h.moved _ rfl (by simp)]
  exact hrest

/-- A name ends where no segment follows: a word behind a dot is none if it is reserved. -/
theorem Took.scanName_of_complete (h : s.Took taken ahead)
    (hdot : 1 < names.length → '.' ∈ taken)
    (hend : ∀ c cs, ahead = '.' :: c :: cs → c ≠ '"' ∧
      (Word.isStart c → Word.isReserved (c :: cs.takeWhile Word.isPart))) :
    s.scanName names
      = some ((Name.Continuation.complete [] ahead).item s.start s.mark taken names, s) := by
  rw [Scanner.scanName, h.peek, h.peekNext]
  simp only [Option.bind_eq_bind, Option.bind_some]
  split
  · rename_i hhead
    obtain ⟨cs, rfl⟩ := List.head?_eq_some_iff.1 hhead
    cases cs with
    | nil => exact h.answerName hdot
    | cons c cs =>
      obtain ⟨hquote, hreserved⟩ := hend c cs rfl
      simp only [List.tail_cons, List.head?_cons, if_neg hquote]
      by_cases hstart : Word.isStart c
      · rw [if_pos hstart, h.wordAt, List.takeWhile_cons_of_pos (Word.isPart_of_isStart hstart)]
        simp only [Option.bind_some, isReserved_eq, if_pos (hreserved hstart)]
        exact h.answerName hdot
      · rw [if_neg hstart]
        exact h.answerName hdot
  · exact h.answerName hdot

theorem Took.scanName (h : s.Took taken ahead) (hdot : 1 < names.length → '.' ∈ taken) :
    s.scanName names = s.checked (Name.continuation ahead).passed
      ((Name.continuation ahead).item s.start s.mark taken names,
        s.moved (Name.continuation ahead).passed) := by
  fun_induction Name.continuation ahead generalizing s taken names with
  | case1 body value rest hread _ ih =>
    have hsegment : '.' :: Quoted.text '"' value ++ rest = '.' :: '"' :: body :=
      congrArg ('.' :: ·) (Quoted.text_append_of_read? hread)
    have hdotted : 1 < (names ++ [String.ofList value]).length →
        '.' ∈ taken ++ '.' :: Quoted.text '"' value := by
      simp
    have hrest := ih (h.moved_of_eq hsegment) hdotted
    rw [Name.Continuation.passed_cons, Name.Continuation.item_cons]
    apply h.scanName_quoted hread
    rw [moved_moved] at hrest
    exact hrest
  | case2 body hread => exact h.scanName_of_unclosed hread
  | case3 c cs hquote word hword _ =>
    rename_i ih
    rw [Bool.and_eq_true, Bool.not_eq_true'] at hword
    obtain ⟨hstart, hreserved⟩ := hword
    have hwhole : (c :: cs).takeWhile Word.isPart = word :=
      List.takeWhile_cons_of_pos (Word.isPart_of_isStart hstart)
    have hsplit : '.' :: word ++ cs.dropWhile Word.isPart = '.' :: c :: cs := by
      simp [word, List.takeWhile_append_dropWhile]
    have hdotted : 1 < (names ++ [String.ofList word]).length → '.' ∈ taken ++ '.' :: word := by
      simp
    have hrest := ih (h.moved_of_eq hsplit) hdotted
    rw [Name.Continuation.passed_cons, Name.Continuation.item_cons]
    apply h.scanName_bare hquote hstart hwhole hreserved
    rw [moved_moved] at hrest
    exact hrest
  | case4 c cs hquote word =>
    rename_i hword
    apply h.scanName_of_complete hdot
    rintro d ds heq
    obtain ⟨-, rfl, rfl⟩ : '.' = '.' ∧ c = d ∧ cs = ds := by simpa using heq
    refine ⟨hquote, fun hstart => ?_⟩
    simpa [hstart] using hword
  | case5 text hquote hword =>
    apply h.scanName_of_complete hdot
    intro c cs htext
    exact absurd htext (hword c cs)

/-! ### Numerals -/

theorem Took.scanFraction (h : s.Took taken ahead) :
    s.scanFraction = s.checked (Numeral.fractionText (Numeral.fraction? ahead).1)
      (!(Numeral.fraction? ahead).1.isEmpty,
        s.moved (Numeral.fractionText (Numeral.fraction? ahead).1)) := by
  rw [Scanner.scanFraction, h.peek, h.peekNext]
  simp only [Option.bind_eq_bind, Option.bind_some]
  fun_cases Numeral.fraction? ahead with
  | case1 c cs hdigit =>
    have hdigits : (c :: cs).takeWhile Char.isDigit = c :: cs.takeWhile Char.isDigit :=
      List.takeWhile_cons_of_pos hdigit
    simp only [List.head?_cons, List.tail_cons, if_pos, Option.any_some, hdigit]
    rw [h.advance_cons]
    refine checked_bind ['.'] (c :: cs.takeWhile Char.isDigit) ?_
    rw [h.moved_cons.eatWhile, hdigits]
    exact checked_bind_some (by rw [moved_moved]; rfl)
  | case2 c cs hdigit => simp [hdigit, Numeral.fractionText]
  | case3 _ hpoint =>
    split
    · rename_i hhead
      obtain ⟨cs, rfl⟩ := List.head?_eq_some_iff.1 hhead
      cases cs with
      | nil => rfl
      | cons c cs => exact absurd rfl (hpoint c cs)
    · rfl

theorem Took.scanSign_cons (h : s.Took taken (c :: ahead)) (hc : c = '+' ∨ c = '-') :
    s.scanSign = s.checked [c] (s.moved [c]) := by
  rw [Scanner.scanSign, h.peek]
  simp only [List.head?_cons, Option.bind_eq_bind, Option.bind_some, Option.some.injEq, if_pos hc]
  rw [h.advance_cons]
  exact checked_bind_some rfl

theorem Took.scanSign_of_head (h : s.Took taken ahead)
    (hhead : ∀ c ∈ ahead.head?, ¬ (c = '+' ∨ c = '-')) : s.scanSign = some s := by
  have hnone : ¬ (ahead.head? = some '+' ∨ ahead.head? = some '-') := by
    intro hsign
    rcases hsign with hsign | hsign
    · exact hhead '+' hsign (.inl rfl)
    · exact hhead '-' hsign (.inr rfl)
  rw [Scanner.scanSign, h.peek]
  simp only [Option.bind_eq_bind, Option.bind_some, if_neg hnone]
  rfl

theorem Took.eatDigits {digits : List Char} (h : s.Took taken (digits ++ ahead))
    (hdigits : ∀ c ∈ digits, c.isDigit) (hstop : ∀ c ∈ ahead.head?, c.isDigit = false) :
    s.eatDigits = s.checked digits (!digits.isEmpty, s.moved digits) := by
  rw [Scanner.eatDigits, h.peek]
  cases digits with
  | nil =>
    have hnone : ahead.head?.any Char.isDigit = false := by
      cases ahead with
      | nil => rfl
      | cons c cs => exact hstop c rfl
    simp [hnone]
  | cons c cs =>
    have hdigit : c.isDigit := hdigits c List.mem_cons_self
    rw [h.eatWhile, (Text.span_run hdigits hstop).1]
    simp only [Option.bind_eq_bind, Option.bind_some, List.cons_append, List.head?_cons,
      Option.any_some, hdigit, if_pos]
    exact checked_bind_some rfl

theorem Took.scanExponent (h : s.Took taken ahead) :
    s.scanExponent =
      s.checked (((Exponent.read? ahead).map fun found => found.1.text).getD [])
        ((Exponent.read? ahead).map fun found => !found.1.digits.isEmpty,
          s.moved (((Exponent.read? ahead).map fun found => found.1.text).getD [])) := by
  rw [Scanner.scanExponent, h.peek]
  simp only [Option.bind_eq_bind, Option.bind_some]
  cases hread : Exponent.read? ahead with
  | none =>
    have hhead := Exponent.head_of_read?_eq_none hread
    have hnone : ¬ (ahead.head? = some 'e' ∨ ahead.head? = some 'E') := by
      intro hletter
      rcases hletter with hletter | hletter
      · exact (hhead 'e' hletter).1 rfl
      · exact (hhead 'E' hletter).2 rfl
    rw [if_neg hnone]
    rfl
  | some found =>
    obtain ⟨e, rest⟩ := found
    have hwell := Exponent.wellFormed_of_read? hread
    obtain ⟨hstop, hsigned⟩ := Exponent.rest_of_read? hread
    obtain rfl := Exponent.text_append_of_read? hread
    obtain ⟨letter, sign, digits⟩ := e
    have hmarked : some letter = some 'e' ∨ some letter = some 'E' := by simpa using hwell.letter
    have hsign : ∀ c ∈ sign, c = '+' ∨ c = '-' := hwell.sign
    have hdigits : ∀ c ∈ digits, c.isDigit := hwell.digits
    simp only [Exponent.text, List.cons_append, List.append_assoc, List.head?_cons, Option.map_some,
      Option.getD_some] at h ⊢
    rw [if_pos hmarked, h.advance_cons]
    refine checked_bind [letter] (sign.toList ++ digits) ?_
    cases sign with
    | none =>
      rw [Option.toList_none, List.nil_append] at h
      dsimp only
      rw [h.moved_cons.scanSign_of_head (hsigned.head hdigits rfl), Option.bind_some,
        h.moved_cons.eatDigits hdigits hstop]
      exact checked_bind_some (by simp)
    | some c =>
      rw [Option.toList_some, List.singleton_append] at h
      dsimp only
      rw [h.moved_cons.scanSign_cons (hsign c rfl)]
      refine checked_bind [c] digits ?_
      rw [h.moved_cons.moved_cons.eatDigits hdigits hstop]
      exact checked_bind_some (by simp)

end Scanner

end SqlScan
