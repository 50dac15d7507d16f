import Mathlib.Algebra.BigOperators.Group.List.Basic
import SqlScan.Proofs.ByteSources
import SqlScan.Proofs.Order
import SqlScan.Proofs.Scanner.Faults

/-!
# The lines of a report

A report of faults is meant to have a line for its count and then one line for each fault. A message
shows a character escaped and a numeral has no newline in it, but the quoted text of an unterminated
string is shown as it stands. So what the report adds are the newlines among the characters that such a
fault shows (`Fault.TrueOf.count_message`), and only the last fault can be one.
-/

namespace SqlScan

/-! ### Lines -/

namespace Text

/-- The parts of a text between its newlines. -/
def lines (text : List Char) : List (List Char) := text.splitOn '\n'

theorem lines_eq_singleton {text : List Char} (h : '\n' ∉ text) : lines text = [text] :=
  List.splitOn_eq_singleton h

theorem lines_append_newline (text rest : List Char) :
    lines (text ++ '\n' :: rest) = lines text ++ lines rest :=
  List.splitOnP_append_cons text rest rfl

theorem lines_intercalate {texts : List (List Char)} (hne : texts ≠ []) :
    lines (['\n'].intercalate texts) = texts.flatMap lines := by
  induction texts with
  | nil => exact absurd rfl hne
  | cons text more ih =>
    cases more with
    | nil => simp
    | cons next more =>
      rw [List.intercalate_cons_cons, List.append_assoc, List.singleton_append,
        lines_append_newline, ih (List.cons_ne_nil _ _)]
      rfl

theorem length_lines (text : List Char) : (lines text).length = text.count '\n' + 1 := by
  induction text with
  | nil => rfl
  | cons c cs ih =>
    by_cases hc : c = '\n'
    · subst hc
      have hcons := lines_append_newline [] cs
      rw [List.nil_append] at hcons
      rw [hcons, List.length_append, ih, List.count_cons_self]
      exact Nat.add_comm _ _
    · have hcons : lines (c :: cs) = (lines cs).modifyHead (c :: ·) := by
        rw [lines, List.splitOn, List.splitOnP_cons_eq_if_modifyHead, if_neg (by simpa using hc)]
        rfl
      rw [hcons, List.length_modifyHead, ih, List.count_cons_of_ne hc]

/-! ### Texts without newlines -/

theorem toString_eq_self (s : String) : toString s = s := rfl

theorem digitChar_ne_newline : ∀ n < 16, '\n' ≠ Nat.digitChar n := by
  decide

theorem newline_not_mem_toDigits {base : Nat} (hbase : 1 < base) (hle : base ≤ 16) (n : Nat) :
    '\n' ∉ Nat.toDigits base n := by
  induction n using Nat.strongRecOn with
  | ind n ih =>
    rw [Nat.toDigits_eq_if hbase]
    split
    · rename_i hsmall
      rw [List.mem_singleton]
      exact digitChar_ne_newline n (by omega)
    · have hdigit : n % base < 16 := Nat.lt_of_lt_of_le (Nat.mod_lt n (by omega)) hle
      have hless : n / base < n := Nat.div_lt_self (by omega) hbase
      rw [List.mem_append, List.mem_singleton, not_or]
      exact ⟨ih _ hless, digitChar_ne_newline _ hdigit⟩

theorem newline_not_mem_toString (n : Nat) : '\n' ∉ (toString n).toList := by
  have htext : (toString n).toList = Nat.toDigits 10 n := Nat.toList_repr
  rw [htext]
  exact newline_not_mem_toDigits (by decide) (by decide) n

theorem newline_not_mem_shown {quote : Char} (hquote : quote ≠ '\n') (c : Char) :
    '\n' ∉ shown quote c := by
  have hdigits : '\n' ∉ Nat.toDigits 16 c.toNat := newline_not_mem_toDigits (by decide) le_rfl _
  unfold shown
  split_ifs with hescaped hnull htab hnewline hreturn hunprintable
  · have hc : c ≠ '\n' := by
      rintro rfl
      rcases hescaped with hc | hc
      · exact hquote hc.symm
      · exact absurd hc (by decide)
    simp [hc.symm]
  · decide
  · decide
  · decide
  · decide
  · simp [hdigits]
  · rw [List.mem_singleton]
    exact Ne.symm hnewline

theorem newline_not_mem_showChar (c : Char) : '\n' ∉ (showChar c).toList := by
  have hshown : '\n' ∉ shown '\'' c := newline_not_mem_shown (by decide) c
  rw [showChar, String.toList_ofList]
  simp [hshown]

end Text

theorem Location.newline_not_mem_display (l : Location) : '\n' ∉ l.display.toList := by
  rw [display, String.toList_append, String.toList_append, List.mem_append, List.mem_append]
  rintro ((hline | hcolon) | hcolumn)
  · exact Text.newline_not_mem_toString _ hline
  · exact absurd hcolon (by decide)
  · exact Text.newline_not_mem_toString _ hcolumn

theorem Numeral.WellFormed.newline_not_mem_text {n : Numeral} (h : n.WellFormed) :
    '\n' ∉ n.text := by
  have hdigit : ∀ digits : List Char, (∀ c ∈ digits, c.isDigit) → '\n' ∉ digits := by
    intro digits hdigits hmem
    exact absurd (hdigits _ hmem) (by decide)
  rw [text, List.mem_append, List.mem_append]
  rintro ((hwhole | hfraction) | hexponent)
  · exact hdigit _ h.whole hwhole
  · unfold fractionText at hfraction
    split at hfraction
    · cases hfraction
    · rcases List.mem_cons.1 hfraction with hpoint | hfraction
      · exact absurd hpoint (by decide)
      · exact hdigit _ h.fraction hfraction
  · cases hn : n.exponent with
    | none =>
      rw [hn] at hexponent
      cases hexponent
    | some e =>
      rw [hn, Option.map_some, Option.getD_some, Exponent.text, List.mem_cons, List.mem_append,
        Option.mem_toList] at hexponent
      obtain ⟨hletter, hsign, hdigits⟩ := h.exponent e hn
      rcases hexponent with hmem | hmem | hmem
      · rw [← hmem] at hletter
        exact absurd hletter (by decide)
      · exact absurd (hsign _ hmem) (by decide)
      · exact hdigit _ hdigits hmem

/-! ### Messages -/

namespace Fault

/-- How many newlines of the source the message about a fault shows: those among the first characters
of the text that nothing closes, if that is what is wrong. -/
def newlines (source : List Char) (f : Fault) : Nat :=
  match f.cause, f.span.slice? source with
  | .unterminatedString, some part => (part.take 40).count '\n'
  | _, _ => 0

/-- What a report has for a fault. -/
def entry (f : Fault) : List Char := ("  - " ++ f.message).toList

variable {source part behind : List Char} {f : Fault}

theorem TrueOf.count_snippet (h : f.TrueOf source part behind) :
    f.snippet.toList.count '\n' = (part.take 40).count '\n' := by
  rcases Nat.lt_or_ge 40 part.length with hlong | hshort
  · rw [h.shown_cut hlong, String.toList_ofList, List.count_append]
    rfl
  · rw [h.shown_whole hshort, String.toList_ofList, List.take_of_length_le hshort]

/-- The message about a fault has the newlines that it shows of the source and no others. -/
theorem TrueOf.count_message (h : f.TrueOf source part behind) :
    f.message.toList.count '\n' = f.newlines source := by
  have hsnippet := h.count_snippet
  have hplace := List.count_eq_zero.2 f.location.newline_not_mem_display
  have hcause := h.cause
  unfold message newlines
  rw [h.slice]
  generalize f.cause = cause at hcause ⊢
  cases hcause with
  | unexpectedCharacter c =>
    have hshown := List.count_eq_zero.2 (Text.newline_not_mem_showChar c)
    simp only [Text.toString_eq_self, String.toList_append, List.count_append, hplace, hshown]
    decide
  | @malformedNumber n hn _ reason =>
    have htaken : (n.text.take 40).count '\n' = 0 := List.count_eq_zero.2 fun hmem =>
      hn.newline_not_mem_text (List.mem_of_mem_take hmem)
    simp only [Text.toString_eq_self, String.toList_append, List.count_append, hsnippet, htaken, hplace]
    cases reason <;> decide
  | unterminatedString =>
    have hwords : "unterminated string literal at ".toList.count '\n' = 0 := by decide
    have hcolon : ": ".toList.count '\n' = 0 := by decide
    simp only [Text.toString_eq_self, String.toList_append, List.count_append, hsnippet, hplace, hwords, hcolon,
      Nat.zero_add]
  | unterminatedComment =>
    simp only [Text.toString_eq_self, String.toList_append, List.count_append, hplace]
    decide

/-- Bytes are shown as escapes. -/
theorem count_message_ofIllFormed (i : Text.Utf8.IllFormed) :
    (ofIllFormed i).message.toList.count '\n' = 0 := by
  have hplace := List.count_eq_zero.2 (ofIllFormed i).location.newline_not_mem_display
  have hdigit : ∀ n < 16, '\n' ≠ (Nat.digitChar n).toUpper := by decide
  have hsnippet : (byteSnippets i.bytes).toList.count '\n' = 0 := by
    rw [byteSnippets, String.toList_ofList, List.count_eq_zero, List.mem_flatMap]
    rintro ⟨b, -, hb⟩
    have hsize := b.toNat_lt
    have hhigh := hdigit (b.toNat / 16) (by omega)
    have hlow := hdigit (b.toNat % 16) (by omega)
    simp [byteSnippet, hhigh, hlow] at hb
  unfold message
  simp only [ofIllFormed] at hplace ⊢
  simp only [Text.toString_eq_self, String.toList_append, List.count_append, hplace, hsnippet]
  decide

theorem count_entry (f : Fault) : f.entry.count '\n' = f.message.toList.count '\n' := by
  have hdash : "  - ".toList.count '\n' = 0 := by decide
  rw [entry, String.toList_append, List.count_append, hdash, Nat.zero_add]

end Fault

/-! ### Reports -/

namespace FaultReport

/-- The line that a report begins with. -/
def heading (r : FaultReport) : List Char := (toString r.faults.length ++ " lex error(s):").toList

/-- The lines of a report are its heading and those of its faults in turn, of which there is one for a
fault and one more for each newline that the fault shows. So a report has as many lines as it is meant to
have if and only if no fault shows any, and then each fault is a line. -/
structure SplitsBy (newlines : Fault → Nat) (r : FaultReport) : Prop where
  lines : Text.lines r.message.toList
    = r.heading :: r.faults.flatMap fun f => Text.lines f.entry
  entry : ∀ f ∈ r.faults, (Text.lines f.entry).length = newlines f + 1
  one_each : Text.lines r.message.toList = r.heading :: r.faults.map Fault.entry ↔
    ∀ f ∈ r.faults, newlines f = 0
  count : (Text.lines r.message.toList).length = r.faults.length + 1 ↔
    ∀ f ∈ r.faults, newlines f = 0

variable {r : FaultReport} {newlines : Fault → Nat}

theorem newline_not_mem_heading (r : FaultReport) : '\n' ∉ r.heading := by
  rw [heading, String.toList_append, List.mem_append]
  rintro (hnumber | hwords)
  · exact Text.newline_not_mem_toString _ hnumber
  · exact absurd hwords (by decide)

theorem toList_message (r : FaultReport) : r.message.toList
    = r.heading ++ '\n' :: ['\n'].intercalate (r.faults.map Fault.entry) := by
  have hwords : " lex error(s):\n".toList = " lex error(s):".toList ++ ['\n'] := by decide
  have hentries : (r.faults.map fun f => "  - " ++ f.message).map String.toList
      = r.faults.map Fault.entry := List.map_map
  rw [message, String.toList_append, String.toList_append, String.toList_intercalate, hentries, heading,
    String.toList_append]
  show _ ++ " lex error(s):\n".toList ++ _ = _
  rw [hwords, List.append_assoc, List.append_assoc, List.append_assoc]
  rfl

theorem lines_message (hne : r.faults ≠ []) : Text.lines r.message.toList
    = r.heading :: r.faults.flatMap fun f => Text.lines f.entry := by
  have hentries : r.faults.map Fault.entry ≠ [] := by simpa using hne
  rw [r.toList_message, Text.lines_append_newline, Text.lines_eq_singleton r.newline_not_mem_heading,
    Text.lines_intercalate hentries, List.flatMap_map]
  rfl

theorem splitsBy (hne : r.faults ≠ [])
    (h : ∀ f ∈ r.faults, f.message.toList.count '\n' = newlines f) : r.SplitsBy newlines := by
  have hentry : ∀ f ∈ r.faults, (Text.lines f.entry).length = newlines f + 1 := by
    intro f hf
    rw [Text.length_lines, f.count_entry, h f hf]
  have hcount : (Text.lines r.message.toList).length = r.faults.length + 1 ↔
      ∀ f ∈ r.faults, newlines f = 0 := by
    have hlengths : r.faults.map (fun f => (Text.lines f.entry).length)
        = r.faults.map fun f => newlines f + 1 := List.map_congr_left hentry
    have hzero : (r.faults.map newlines).sum = 0 ↔ ∀ f ∈ r.faults, newlines f = 0 := by
      rw [List.sum_eq_zero_iff_forall_eq_nat, List.forall_mem_map]
    rw [lines_message hne, List.length_cons, List.length_flatMap, hlengths, List.sum_map_add,
      List.map_const', List.sum_replicate, ← hzero]
    simp
  refine ⟨lines_message hne, hentry, ?_, hcount⟩
  constructor
  · intro hlines
    rw [← hcount, hlines, List.length_cons, List.length_map]
  · intro hzero
    rw [lines_message hne, List.map_eq_flatMap]
    refine congrArg _ (List.flatMap_congr fun f hf => ?_)
    apply Text.lines_eq_singleton
    rw [← List.count_eq_zero, f.count_entry, h f hf, hzero f hf]

end FaultReport

/-! ### Streams -/

/-- Newlines are shown of a text that nothing closes and of nothing else. -/
theorem Fault.isUnclosed_of_newlines {source : List Char} {f : Fault} (h : f.newlines source ≠ 0) :
    f.isUnclosed := by
  unfold newlines at h
  split at h
  · rename_i hcause _
    rw [isUnclosed, hcause]
    rfl
  · exact absurd rfl h

theorem Fault.exists_trueOf_of_answer {settings : Settings} {source : List Char}
    {stream : TokenStream} (h : (tokenize settings source).answer = .ok stream) {f : Fault}
    (hf : f ∈ stream.faults) : ∃ part behind, f.TrueOf source part behind := by
  have hreply : ((Session.ofSource settings source).perform .run).1 = .stream (.ok stream) :=
    congrArg Reply.stream h
  have hitem : .fault f ∈ ((Session.ofSource settings source).perform .run).1.items := by
    rw [hreply]
    exact List.mem_append_right _ (List.mem_map_of_mem hf)
  exact (Session.readIn_perform (Cursor.consistent_ofSource source) hitem).exists_trueOf

theorem TokenStream.Ordered.isUnclosed_of_mem_dropLast {source : List Char} {s : TokenStream}
    (h : s.Ordered source) {f : Fault} (hf : f ∈ s.faults.dropLast) : f.isUnclosed = false := by
  rw [Bool.eq_false_iff]
  intro hunclosed
  obtain ⟨hlast, -, -⟩ := h.unclosed_last f ((List.dropLast_sublist _).subset hf) hunclosed
  have hsplit := List.dropLast_append_getLast? f hlast
  have honce := h.unclosed_once
  have hfront : 0 < s.faults.dropLast.countP Fault.isUnclosed :=
    List.countP_pos_iff.2 ⟨f, hf, hunclosed⟩
  rw [← hsplit, List.countP_append, List.countP_singleton, if_pos hunclosed] at honce
  omega

/-- The report of a batch pass has a line for its count and one for each fault unless the last of them
shows newlines: then that fault has as many lines more. Bytes that are no text are reported in one. -/
theorem reports_break_at_shown_newlines (limit : Option FaultLimit) :
    (∀ source, ∃ stream, (tokenize ⟨.batch, limit⟩ source).answer = .ok stream ∧
      (stream.faults = [] → stream.result = .ok stream.tokens) ∧
      (stream.faults ≠ [] → ∃ report, stream.result = .error report ∧
        report.faults = stream.faults ∧ report.SplitsBy (Fault.newlines source) ∧
        ∀ f ∈ report.faults.dropLast, f.newlines source = 0)) ∧
    ∀ bytes, (∀ source, bytes ≠ Text.Utf8.encode source) → ∃ tokens fault,
      (tokenizeBytes ⟨.batch, limit⟩ bytes).1 = .ok ⟨tokens, [fault]⟩ ∧
        FaultReport.SplitsBy (fun _ => 0) ⟨[fault]⟩ := by
  constructor
  · intro source
    have hanswer := answer_batch limit source
    have hordered := Cursor.ordered_stream (Cursor.consistent_ofSource source)
      (limit.map fun l => l.count - 1)
    refine ⟨_, hanswer, ?_, ?_⟩
    · intro hnone
      rw [TokenStream.result, hnone]
      rfl
    · intro hne
      refine ⟨_, if_neg (by simpa using hne), rfl, ?_, ?_⟩
      · refine FaultReport.splitsBy hne fun f hf => ?_
        obtain ⟨part, behind, htrue⟩ := Fault.exists_trueOf_of_answer hanswer hf
        exact htrue.count_message
      · intro f hf
        by_contra hnewlines
        have hunclosed := Fault.isUnclosed_of_newlines hnewlines
        rw [hordered.isUnclosed_of_mem_dropLast hf] at hunclosed
        cases hunclosed
  · intro bytes hbytes
    obtain ⟨source, hsource⟩ | ⟨before, bad, after, rfl, hrejected⟩ := Text.Utf8.exists_split bytes
    · exact absurd hsource (hbytes source)
    · have hparts : FallsApart _ before bad after := .of_rejected hrejected
      refine ⟨_, .ofIllFormed ⟨before, bad⟩, congrArg Prod.fst (hparts.tokenizeBytes_eq _), ?_⟩
      refine FaultReport.splitsBy (List.cons_ne_nil _ _) ?_
      exact List.forall_mem_singleton.2 (Fault.count_message_ofIllFormed _)

/-- An unexpected character, shown escaped, and a string that goes over the end of its line: four
lines for two faults. -/
theorem reports_break_at_shown_newlines_string :
    let source := "\x07 'a\nb".toList
    ∃ stream, (tokenize .batch source).answer = .ok stream ∧ stream.faults.length = 2 ∧
      ∃ report, stream.result = .error report ∧
        (Text.lines report.message.toList).length ≠ stream.faults.length + 1 := by
  intro source
  obtain ⟨hsources, -⟩ := reports_break_at_shown_newlines none
  obtain ⟨stream, hanswer, -, hfaults⟩ := hsources source
  have hshown : (tokenize .batch source).answer.map
      (fun stream => stream.faults.map (Fault.newlines source)) = .ok [0, 1] := by
    decide +kernel
  have hanswer : (tokenize .batch source).answer = .ok stream := hanswer
  rw [hanswer] at hshown
  have hshown : stream.faults.map (Fault.newlines source) = [0, 1] := Except.ok.inj hshown
  have hlength : stream.faults.length = 2 := by
    simpa using congrArg List.length hshown
  obtain ⟨report, hreport, hsame, hsplits, -⟩ := hfaults (by
    rw [← List.length_pos_iff, hlength]
    decide)
  refine ⟨stream, hanswer, hlength, report, hreport, ?_⟩
  rw [← hsame, Ne, hsplits.count, hsame]
  intro hnone
  obtain ⟨f, hf, hone⟩ := List.mem_map.1 (hshown ▸ List.mem_cons_of_mem 0 List.mem_cons_self)
  rw [hnone f hf] at hone
  cases hone

end SqlScan
