import SqlScan.Pass
import SqlScan.Proofs.Reading

/-!
# Passes that agree

A strict pass and a batch pass with a limit read the items that a batch pass without a limit reads,
and stop at one of its faults. So their answers are parts of its stream: the strict pass gives the
tokens if there are no faults and the first fault if there are any; the limit leaves that many
faults and the tokens that end before the last of them.
-/

namespace SqlScan

open Cursor (Reads)

/-! ### Bounded blocks against the unbounded one -/

namespace Cursor

variable {c : Cursor} {n : Nat}

theorem block_some_of_length_le (h : (c.block none).faults.length ≤ n) :
    c.block (some n) = c.block none := by
  rcases block_some n c with ⟨hblock, -⟩ | ⟨before, f, after, d, hitems, hlength, -, -⟩
  · exact hblock
  · simp only [Block.faults, hitems, List.filterMap_append, List.length_append, hlength,
      List.filterMap_cons, Item.fault?, List.length_cons] at h
    omega

/-- A block that may pass over `n` faults has one fault more, if there are so many. -/
theorem faults_block_some (n : Nat) (c : Cursor) :
    (c.block (some n)).faults = (c.block none).faults.take (n + 1) := by
  rcases block_some n c with ⟨hblock, hle⟩ | ⟨before, f, after, d, hitems, hlength, hblock, -⟩
  · rw [hblock, List.take_of_length_le (by omega)]
  · have hwhole : (c.block none).faults
        = (before.filterMap Item.fault? ++ [f]) ++ after.filterMap Item.fault? := by
      simp [Block.faults, hitems, Item.fault?]
    have hbounded : (c.block (some n)).faults = before.filterMap Item.fault? ++ [f] := by
      simp [Block.faults, hblock, Item.fault?]
    rw [hwhole, hbounded, List.take_left' (by simp [hlength])]

/-- Without faults it makes no difference how many of them a block may pass over. -/
theorem block_of_faults_eq_nil (spare : Option Nat) (h : (c.block none).faults = []) :
    c.block spare = c.block none := by
  cases spare with
  | none => rfl
  | some n => exact block_some_of_length_le (by simp [h])

theorem faults_block_eq_nil_iff (spare : Option Nat) :
    (c.block spare).faults = [] ↔ (c.block none).faults = [] := by
  cases spare with
  | none => rfl
  | some n =>
    rw [faults_block_some, List.take_eq_nil_iff]
    simp

theorem strict_answer_eq_ok_iff {tokens : List Token} :
    c.strict.answer = .ok tokens ↔
      (c.block none).faults = [] ∧ tokens = (c.block none).tokens := by
  have hfirst := faults_block_some 0 c
  show (c.block (some 0)).strictAnswer = _ ↔ _
  rw [Block.strictAnswer, hfirst]
  cases hfaults : (c.block none).faults with
  | nil =>
    rw [block_some_of_length_le (by simp [hfaults])]
    simp [eq_comm]
  | cons f fs => simp

theorem tokens_stream_none (c : Cursor) : (c.block none).stream.tokens = (c.block none).tokens := by
  rw [Block.stream, full_block_none]
  exact List.append_nil _

/-- The fault that stops a bounded block closes its tokens, and they are those that end before. -/
theorem tokens_stream_some (hc : c.Consistent) {f : Fault}
    (hf : (c.block none).faults[n]? = some f) :
    (c.block (some n)).stream.tokens =
      (c.block none).tokens.filter (fun t => t.span.stop ≤ f.span.start)
        ++ [.endOfFile ⟨f.span.stop, f.span.stop⟩ (Location.ofOffset c.source f.span.stop)] := by
  rcases block_some n c with ⟨-, hle⟩ | ⟨before, g, after, d, hitems, hlength, hblock, hrest⟩
  · rw [List.getElem?_eq_none hle] at hf
    simp at hf
  · have hwhole : (c.block none).faults
        = before.filterMap Item.fault? ++ g :: after.filterMap Item.fault? := by
      simp [Block.faults, hitems, Item.fault?]
    rw [hwhole, ← hlength, List.getElem?_append_right (Nat.le_refl _), Nat.sub_self,
      List.getElem?_cons_zero, Option.some.injEq] at hf
    subst hf
    have hreads := reads_block none c
    have hbounded := reads_block (some n) c
    rw [hblock] at hbounded
    rw [hitems] at hreads
    have htokens : (c.block none).tokens.filter (fun t => t.span.stop ≤ g.span.start)
        = before.filterMap Item.token? := by
      rw [Block.tokens, hitems]
      exact hreads.filter_tokens
    -- the bounded block leaves the cursor right after the fault
    have hstop : g.span.stop = d.position := hbounded.stop_last
    have hlocation := (hbounded.consistent hc).location_mark
    rw [hbounded.source_eq, ← hstop] at hlocation
    rw [htokens, hblock, Block.stream, ← hlocation, hstop]
    simp [Block.tokens, Mark.spanTo, Item.token?, position]

end Cursor

/-! ### What passes answer -/

section Answers

variable {limit : Option FaultLimit} {source : List Char}

theorem answer_failFast_eq_ok_iff {stream : TokenStream} :
    (tokenize ⟨.failFast, limit⟩ source).answer = .ok stream ↔
      ((Cursor.ofSource source).block none).faults = [] ∧
        stream = ⟨((Cursor.ofSource source).block none).tokens, []⟩ := by
  show (Cursor.ofSource source).strict.answer.map _ = _ ↔ _
  constructor
  · intro h
    cases hanswer : (Cursor.ofSource source).strict.answer with
    | error fault => simp [hanswer, Except.map] at h
    | ok tokens =>
      obtain ⟨hfaults, htokens⟩ := Cursor.strict_answer_eq_ok_iff.1 hanswer
      rw [hanswer, htokens] at h
      exact ⟨hfaults, (Except.ok.inj h).symm⟩
  · intro ⟨hfaults, hstream⟩
    rw [Cursor.strict_answer_eq_ok_iff.2 ⟨hfaults, rfl⟩, hstream]
    rfl

theorem answer_failFast_eq_error_iff {fault : Fault} :
    (tokenize ⟨.failFast, limit⟩ source).answer = .error fault ↔
      ((Cursor.ofSource source).block none).faults.head? = some fault := by
  have hfirst := Cursor.faults_block_some 0 (Cursor.ofSource source)
  show (Block.strictAnswer ((Cursor.ofSource source).block (some 0))).map _ = _ ↔ _
  rw [Block.strictAnswer, hfirst]
  cases ((Cursor.ofSource source).block none).faults with
  | nil => simp [Except.map]
  | cons f fs => simp [Except.map]

theorem answer_batch (limit : Option FaultLimit) (source : List Char) :
    (tokenize ⟨.batch, limit⟩ source).answer =
      .ok ((Cursor.ofSource source).block (limit.map fun l => l.count - 1)).stream := rfl

/-- An answer without faults is the same for all settings. -/
theorem answer_eq_ok_nil_iff {s : Settings} {tokens : List Token} :
    (tokenize s source).answer = .ok ⟨tokens, []⟩ ↔
      ((Cursor.ofSource source).block none).faults = [] ∧
        tokens = ((Cursor.ofSource source).block none).tokens := by
  obtain ⟨mode, limit⟩ := s
  cases mode with
  | failFast =>
    rw [answer_failFast_eq_ok_iff]
    simp only [TokenStream.mk.injEq, and_true]
  | batch =>
    let c := Cursor.ofSource source
    let spare := limit.map fun l => l.count - 1
    rw [answer_batch, Except.ok.injEq]
    constructor
    · intro h
      have hfaults : (c.block none).faults = [] :=
        (Cursor.faults_block_eq_nil_iff spare).1 (congrArg TokenStream.faults h)
      rw [Cursor.block_of_faults_eq_nil spare hfaults] at h
      exact ⟨hfaults, (congrArg TokenStream.tokens h).symm.trans c.tokens_stream_none⟩
    · rintro ⟨hfaults, rfl⟩
      rw [Cursor.block_of_faults_eq_nil spare hfaults, ← c.tokens_stream_none, ← hfaults]
      rfl

/-- Every token of an answer was read, or it closes a stream where a limit stopped it. -/
theorem mem_tokens_of_answer {s : Settings} {stream : TokenStream}
    (h : (tokenize s source).answer = .ok stream) {t : Token} (ht : t ∈ stream.tokens) :
    ∃ items c, Cursor.Reads (Cursor.ofSource source) items c ∧
      (.token t ∈ items ∨ t = .endOfFile (c.mark.spanTo c.mark) c.mark.location) := by
  obtain ⟨mode, limit⟩ := s
  cases mode with
  | failFast =>
    obtain ⟨-, rfl⟩ := answer_failFast_eq_ok_iff.1 h
    exact ⟨_, _, Cursor.reads_block none _, .inl (Item.mem_filterMap_token?.1 ht)⟩
  | batch =>
    rw [answer_batch, Except.ok.injEq] at h
    subst h
    refine ⟨_, _, Cursor.reads_block (limit.map fun l => l.count - 1) _, ?_⟩
    rcases List.mem_append.1 ht with ht | ht
    · exact .inl (Item.mem_filterMap_token?.1 ht)
    · split at ht
      · exact .inr (List.mem_singleton.1 ht)
      · simp at ht

end Answers

theorem TokenStream.result_eq_error_iff {s : TokenStream} {report : FaultReport} :
    s.result = .error report ↔ s.faults ≠ [] ∧ report = ⟨s.faults⟩ := by
  unfold result
  cases s.faults with
  | nil => simp
  | cons f fs => simp [eq_comm]

theorem TokenStream.head?_faults_eq_some_iff {s : TokenStream} {fault : Fault} :
    s.faults.head? = some fault ↔ ∃ others, s.result = .error ⟨fault :: others⟩ := by
  constructor
  · intro h
    obtain ⟨others, hothers⟩ := List.head?_eq_some_iff.1 h
    refine ⟨others, result_eq_error_iff.2 ⟨?_, by rw [hothers]⟩⟩
    rw [hothers]
    exact List.cons_ne_nil fault others
  · intro ⟨others, h⟩
    obtain ⟨-, hreport⟩ := result_eq_error_iff.1 h
    rw [← FaultReport.mk.inj hreport]
    rfl

/-! ### Agreement -/

/-- The stream of a batch pass without a limit decides what every other pass over the source
answers. -/
theorem passes_agree (source : List Char) :
    ∃ whole : TokenStream, (tokenize .batch source).answer = .ok whole ∧
      (∀ stream, (tokenize .failFast source).answer = .ok stream ↔
        whole.faults = [] ∧ stream = ⟨whole.tokens, []⟩) ∧
      (∀ fault, (tokenize .failFast source).answer = .error fault ↔
        whole.faults.head? = some fault) ∧
      (∀ fault, (tokenize .failFast source).answer = .error fault ↔
        ∃ others, whole.result = .error ⟨fault :: others⟩) ∧
      (∀ limit : FaultLimit, ∃ limited : TokenStream,
        (tokenize ⟨.batch, some limit⟩ source).answer = .ok limited ∧
        limited.faults = whole.faults.take limit.count ∧
        (whole.faults.length < limit.count → limited = whole) ∧
        ∀ last, whole.faults[limit.count - 1]? = some last →
          limited.tokens = whole.tokens.filter (fun t => t.span.stop ≤ last.span.start)
            ++ [.endOfFile ⟨last.span.stop, last.span.stop⟩
              (Location.ofOffset source last.span.stop)]) ∧
      ∀ limit : Option FaultLimit,
        tokenize ⟨.failFast, limit⟩ source = tokenize .failFast source := by
  let c := Cursor.ofSource source
  have htokens := c.tokens_stream_none
  refine ⟨(c.block none).stream, rfl, ?_, ?_, ?_, ?_, fun _ => rfl⟩
  · intro stream
    rw [htokens]
    exact answer_failFast_eq_ok_iff
  · intro fault
    exact answer_failFast_eq_error_iff
  · intro fault
    rw [← TokenStream.head?_faults_eq_some_iff]
    exact answer_failFast_eq_error_iff
  · intro limit
    have hcount : limit.count - 1 + 1 = limit.count := Nat.sub_add_cancel limit.count_pos
    refine ⟨(c.block (some (limit.count - 1))).stream, rfl, ?_, ?_, ?_⟩
    · rw [← hcount]
      exact c.faults_block_some (limit.count - 1)
    · intro hfew
      have hfew : (c.block none).faults.length < limit.count := hfew
      rw [Cursor.block_some_of_length_le (by omega)]
    · intro last hlast
      rw [htokens]
      exact Cursor.tokens_stream_some (Cursor.consistent_ofSource source) hlast

end SqlScan
