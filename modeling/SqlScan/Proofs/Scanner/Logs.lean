import SqlScan.Proofs.Order
import SqlScan.Proofs.Scanner.Restarts

/-!
# What a log tells

A pass logs each item as it reads it and makes its answer beside that, so log and answer could part.
They do not: both are made of the items that calls for the next item would give one after another
from where the pass began. A batch pass tells all of them in that order, which is the order of their
spans, and a strict pass tells the tokens in front of the first fault, which a batch pass without a
limit answers as well.
-/

namespace SqlScan

open Cursor (Reads)

/-! ### Records -/

/-- An event as it is written down. -/
structure Record where
  level : Level
  message : String
  fields : List (String × String)
  deriving DecidableEq, Repr

def Event.record (e : Event) : Record := ⟨e.level, e.message, e.fields⟩

/-- What is written down of a token that a pass has read. -/
def Token.record (t : Token) : Record :=
  ⟨.trace, "Token",
    [("kind", t.kind.tokenClass.display), ("text", t.text), ("span", t.span.display)]⟩

/-- What is written down of an item that a batch pass has read, with the place behind it. -/
def Item.record (place : Nat) : Item → Record
  | .token t => t.record
  | .fault f =>
    ⟨.debug, "Recovered from lex error", [("error", f.message), ("resume_at", toString place)]⟩

def Record.started (mode : String) (size : Nat) : Record :=
  ⟨.debug, "Tokenizing", [("mode", mode), ("bytes", toString size)]⟩

/-- What is written down last by a strict pass. -/
def Record.ofStrict : Except Fault (List Token) → Record
  | .ok tokens => ⟨.debug, "Tokenized", [("tokens", toString tokens.length)]⟩
  | .error fault => ⟨.debug, "Tokenizing aborted", [("error", fault.message)]⟩

/-- What is written down last by a batch pass. -/
def Record.ofStream (stream : TokenStream) : Record :=
  ⟨.debug, "Tokenized",
    [("tokens", toString stream.tokens.length), ("errors", toString stream.faults.length)]⟩

def Record.limitReached (faults : Nat) : Record :=
  ⟨.debug, "Error limit reached", [("errors", toString faults)]⟩

/-! ### Blocks -/

namespace TokenStream

/-- The stream has as many faults as the limit allows. -/
def Reaches (limit : Option FaultLimit) (stream : TokenStream) : Prop :=
  limit.map FaultLimit.count = some stream.faults.length

instance (limit : Option FaultLimit) (stream : TokenStream) : Decidable (stream.Reaches limit) :=
  inferInstanceAs (Decidable (_ = _))

/-- The tokens of the stream in front of its first fault. -/
def tokensBeforeFault (stream : TokenStream) : List Token :=
  match stream.faults.head? with
  | none => stream.tokens
  | some f => stream.tokens.filter fun t => t.span.stop ≤ f.span.start

end TokenStream

namespace Block.StopsAt

variable {c : Cursor} {spare : Option Nat} {before : List Item} {last : Item}

/-- All items but the last cover something, and lie in front of those behind them. -/
theorem pairwise_items (h : (c.block spare).StopsAt spare before last) :
    ((c.block spare).items.map Item.span).Pairwise Span.Precedes := by
  have hreads := (Cursor.reads_block spare c).precedes
  rw [h.items, List.pairwise_append] at hreads
  obtain ⟨hbefore, -, hlast⟩ := hreads
  rw [List.pairwise_map, h.items, List.pairwise_append]
  refine ⟨?_, List.pairwise_singleton _ _, ?_⟩
  · exact hbefore.imp_of_mem fun {a b} ha _ hab => hab (h.goes_on a ha)
  · intro a ha b hb
    exact hlast a ha b hb (h.goes_on a ha)

theorem full_iff {limit : Option FaultLimit} (hspare : spare = limit.map fun l => l.count - 1)
    (h : (c.block spare).StopsAt spare before last) :
    (c.block spare).full ↔ (c.block spare).stream.Reaches limit := by
  have hfaults : (c.block spare).stream.faults
      = before.filterMap Item.fault? ++ [last].filterMap Item.fault? := by
    show (c.block spare).items.filterMap Item.fault? = _
    rw [h.items, List.filterMap_append]
  rw [TokenStream.Reaches, hfaults]
  subst hspare
  rcases h.stop with ⟨hopen, hend⟩ | ⟨hfull, hspare, f, rfl⟩
  · obtain ⟨t, rfl⟩ := Item.exists_token_of_isEnd hend
    rw [hopen]
    refine ⟨by simp, fun hlimit => ?_⟩
    obtain ⟨l, rfl, hcount⟩ := Option.map_eq_some_iff.1 hlimit
    have hfew := h.few (l.count - 1) rfl
    have hpos := l.count_pos
    simp only [List.filterMap_cons, Item.fault?, List.filterMap_nil, List.append_nil] at hcount
    omega
  · obtain ⟨l, rfl, hcount⟩ := Option.map_eq_some_iff.1 hspare
    have hpos := l.count_pos
    refine ⟨fun _ => ?_, fun _ => hfull⟩
    simp only [Option.map_some, Option.some.injEq, List.length_append, List.filterMap_cons,
      Item.fault?, List.filterMap_nil, List.length_singleton]
    omega

end Block.StopsAt

namespace Cursor

variable {c : Cursor}

/-- A strict pass reads tokens only, up to the fault that stops it. -/
theorem items_block_zero (c : Cursor) :
    (c.block (some 0)).items
      = (c.block (some 0)).tokens.map .token ++ (c.block (some 0)).faults.map .fault := by
  induction c using readInduction with
  | atEnd c hend =>
    obtain ⟨t, ht⟩ := Item.exists_token_of_isEnd hend
    rw [block_of_isEnd hend, ht]
    rfl
  | atToken c t htoken hend ih =>
    rw [block_of_token htoken hend, Block.tokens_cons_token, Block.faults_cons_token, List.map_cons,
      List.cons_append, ← ih]
    rfl
  | atFault c f hfault ih =>
    rw [block_zero_of_fault hfault]
    rfl

theorem tokensBeforeFault_block_none (c : Cursor) :
    (c.block none).stream.tokensBeforeFault = (c.block (some 0)).tokens := by
  have htokens := c.tokens_stream_none
  rcases block_some 0 c with ⟨hblock, hle⟩ | ⟨before, f, after, d, hitems, hlength, hblock, -⟩
  · have hfaults : (c.block none).stream.faults = [] :=
      List.eq_nil_of_length_eq_zero (Nat.le_zero.1 hle)
    rw [TokenStream.tokensBeforeFault, hfaults, hblock, htokens]
    rfl
  · have hnone := List.eq_nil_of_length_eq_zero hlength
    have hfaults : (c.block none).stream.faults = f :: after.filterMap Item.fault? := by
      show (c.block none).items.filterMap Item.fault? = _
      rw [hitems, List.filterMap_append, hnone]
      rfl
    have hreads := reads_block none c
    rw [hitems] at hreads
    have hfilter := hreads.filter_tokens
    rw [TokenStream.tokensBeforeFault, hfaults, htokens, hblock, Block.tokens, Block.tokens, hitems]
    dsimp only [List.head?_cons]
    rw [hfilter, List.filterMap_append]
    exact (List.append_nil _).symm

theorem faults_block_zero (c : Cursor) :
    (c.block (some 0)).faults = (c.block none).stream.faults.head?.toList := by
  rw [faults_block_some, List.take_one]
  rfl

/-- The first fault stops a strict pass, if there is any. -/
theorem strict_answer_eq (c : Cursor) : c.strict.answer =
    match (c.block none).stream.faults.head? with
    | some fault => .error fault
    | none => .ok (c.block (some 0)).tokens := by
  show (c.block (some 0)).strictAnswer = _
  rw [Block.strictAnswer, faults_block_zero]
  cases (c.block none).stream.faults.head? <;> rfl

/-- What is ahead in a source that can be counted can be counted on. -/
theorem Consistent.counts_ahead (hc : c.Consistent) (h : Location.origin.counts c.source) :
    c.mark.location.counts c.ahead := by
  obtain ⟨seen, hparts, hmark⟩ := hc
  rw [hparts, Location.counts_append, Bool.and_eq_true] at h
  rw [hmark, Mark.location_after]
  exact h.2

end Cursor

/-! ### Items that calls give -/

namespace Scanner

variable {s t : Scanner} {c d : Cursor} {items : List Item} {run : List Char}

/-- Calls for the next item give these one after another, and lead the scanner to these places. -/
inductive Answers : Scanner → List (Item × Nat) → Scanner → Prop where
  | stop (s : Scanner) : Answers s [] s
  | call {s t u : Scanner} {item : Item} {answers : List (Item × Nat)}
      (hnext : s.next = some (item, t)) (hrest : Answers t answers u) :
      Answers s ((item, t.position) :: answers) u

/-- Each item with the place where its span ends. -/
def placed (items : List Item) : List (Item × Nat) := items.map fun item => (item, item.span.stop)

/-- What a reading gives the calls give, if the text that it goes over can be counted. -/
theorem StandsAt.exists_answers (hs : s.StandsAt c) (hreads : Reads c items d)
    (hover : c.Over run d) (hcounts : c.mark.location.counts run) :
    ∃ t : Scanner, s.Answers (placed items) t ∧ t.StandsAt d := by
  induction hreads generalizing s run with
  | stop c => exact ⟨s, .stop s, hs⟩
  | @step c d items hreads ih =>
    obtain ⟨first, t, hfirst, ht, -, hnext⟩ := hs.next
    obtain ⟨more, hmore⟩ := hreads.exists_over
    obtain rfl := hover.unique (hfirst.trans hmore)
    rw [Location.counts_append, Bool.and_eq_true, ← hfirst.location] at hcounts
    rw [Location.checked_of_counts hcounts.1] at hnext
    obtain ⟨u, hanswers, hu⟩ := ih ht hmore hcounts.2
    refine ⟨u, ?_, hu⟩
    have hcall := Answers.call hnext hanswers
    rw [ht.position_eq_stop] at hcall
    exact hcall

theorem Goes.exists_over {α : Type} {x : Option α} {value : Scanner → α} {result : α}
    (h : s.Goes c x value d) (hx : x = some result) :
    ∃ run, c.Over run d ∧ c.mark.location.counts run := by
  obtain ⟨run, t, hover, -, -, hvalue⟩ := h
  rw [hx] at hvalue
  exact ⟨run, hover, (Location.checked_eq_some_iff.1 hvalue.symm).1⟩

/-! ### What the log of a pass tells -/

/-- The stream and the log of a batch pass are made of what calls for the next item would give, in
the order of the spans: the one lists the tokens and the faults apart, the other tells of each in
turn. -/
structure TellsBatch (s t : Scanner) (answers : List (Item × Nat)) (stream : TokenStream)
    (log : List Event) : Prop where
  calls : ∃ u : Scanner, s.Answers answers u ∧ u.mark = t.mark
  resumes : ∀ answer ∈ answers, answer.2 = answer.1.span.stop
  in_order : (answers.map fun answer => answer.1.span).Pairwise Span.Precedes
  tokens : stream.tokens = answers.filterMap (fun answer => answer.1.token?) ++
    if stream.Reaches s.settings.limit then
      [.endOfFile (t.mark.spanTo t.mark) t.mark.location]
    else []
  faults : stream.faults = answers.filterMap fun answer => answer.1.fault?
  stop : ∃ before last, answers.map Prod.fst = before ++ [last] ∧
    ((stream.Reaches s.settings.limit ∧ ∃ fault, last = .fault fault) ∨
      (¬ stream.Reaches s.settings.limit ∧ last.isEnd))
  log : log.map Event.record =
    .started "batch" (Text.size s.source) ::
      (answers.map (fun answer => answer.1.record answer.2) ++
        (if stream.Reaches s.settings.limit then [.limitReached stream.faults.length] else []) ++
        [.ofStream stream])

/-- The scanner without its limit. -/
def unlimited (s : Scanner) : Scanner := { s with settings := { s.settings with limit := none } }

/-- The log of a strict pass tells of the tokens that calls for the next item would give up to the
first fault. They are what the pass answers, or what a batch pass without a limit answers in front
of it. -/
structure TellsStrict (s : Scanner) (tokens : List Token) (answer : Except Fault (List Token))
    (log : List Event) : Prop where
  calls : ∃ answers u, s.Answers answers u ∧
    answers.map Prod.fst = tokens.map .token ++ match answer with
      | .ok _ => []
      | .error fault => [.fault fault]
  answered : ∀ all, answer = .ok all → all = tokens
  log : log.map Event.record =
    .started "fail-fast" (Text.size s.source) :: (tokens.map Token.record ++ [.ofStrict answer])
  whole : ∀ stream log t, s.unlimited.batch = some (stream, log, t) →
    tokens = stream.tokensBeforeFault ∧
      ∀ fault, answer = .error fault ↔ stream.faults.head? = some fault

theorem map_fst_placed (items : List Item) : (placed items).map Prod.fst = items := by
  rw [placed, List.map_map]
  exact List.map_id items

theorem filterMap_placed {α : Type} (p : Item → Option α) (items : List Item) :
    (placed items).filterMap (fun answer => p answer.1) = items.filterMap p := by
  rw [placed, List.filterMap_map]
  rfl

theorem record_batchEvent (items : List Item) :
    (items.map Block.batchEvent).map Event.record
      = (placed items).map fun answer => answer.1.record answer.2 := by
  rw [placed, List.map_map, List.map_map]
  congr 1
  funext item
  cases item <;> rfl

theorem map_record_batchLog (b : Block) : b.batchLog.map Event.record =
    .started "batch" (Text.size b.cursor.source) ::
      ((placed b.items).map (fun answer => answer.1.record answer.2) ++
        (if b.full then [.limitReached b.stream.faults.length] else []) ++
        [.ofStream b.stream]) := by
  rw [Block.batchLog, List.map_append, List.map_append, List.map_cons, apply_ite (List.map _),
    record_batchEvent]
  rfl

theorem StandsAt.tellsBatch (hs : s.StandsAt c) {stream : TokenStream} {log : List Event}
    (h : s.batch = some (stream, log, t)) : ∃ answers, TellsBatch s t answers stream log := by
  let spare := s.settings.limit.map fun l => l.count - 1
  have hreads := Cursor.reads_block spare c
  obtain ⟨before, last, hstops⟩ := Cursor.exists_stopsAt spare c
  obtain ⟨run, hover, hcounts⟩ := hs.batch.exists_over h
  obtain ⟨u, hanswers, hu⟩ := hs.exists_answers hreads hover hcounts
  obtain ⟨v, hv, heq⟩ := hs.batch.of_eq_some h
  obtain ⟨rfl, hrest⟩ := Prod.mk.inj heq
  obtain ⟨rfl, rfl⟩ := Prod.mk.inj hrest
  have hmark : t.mark = (c.block spare).cursor.mark := hv.mark
  have hsource : (c.block spare).cursor.source = s.source := hreads.source_eq.trans hs.source.symm
  have hfull : (c.block spare).full ↔
      (c.batch s.settings.limit).answer.Reaches s.settings.limit := hstops.full_iff rfl
  refine ⟨placed (c.block spare).items, ?_, ?_, ?_, ?_, ?_, ?_, ?_⟩
  · exact ⟨u, hanswers, hu.mark.trans hmark.symm⟩
  · exact List.forall_mem_map.2 fun item _ => rfl
  · rw [placed, List.map_map]
    exact hstops.pairwise_items
  · rw [filterMap_placed, hmark]
    exact congrArg (_ ++ ·) (if_congr hfull rfl rfl)
  · rw [filterMap_placed]
    rfl
  · refine ⟨before, last, by rw [map_fst_placed, hstops.items], ?_⟩
    rw [← hfull]
    rcases hstops.stop with ⟨hopen, hend⟩ | ⟨hclosed, -, hfault⟩
    · exact .inr ⟨by rw [hopen]; exact Bool.false_ne_true, hend⟩
    · exact .inl ⟨hclosed, hfault⟩
  · show (c.block spare).batchLog.map Event.record = _
    rw [map_record_batchLog, hsource]
    simp only [hfull]
    rfl

/-- What a strict pass reads is its tokens, and the fault if it answers one. -/
theorem items_block_zero_eq (c : Cursor) :
    (c.block (some 0)).items = (c.block (some 0)).tokens.map .token ++
      match c.strict.answer with
      | .ok _ => []
      | .error fault => [.fault fault] := by
  rw [c.items_block_zero, c.faults_block_zero, c.strict_answer_eq]
  cases (c.block none).stream.faults.head? <;> rfl

theorem map_record_strictLog (c : Cursor) : c.strict.log.map Event.record =
    .started "fail-fast" (Text.size c.source) ::
      ((c.block (some 0)).tokens.map Token.record ++ [.ofStrict c.strict.answer]) := by
  have hsource := (Cursor.reads_block (some 0) c).source_eq
  have htokens : (((c.block (some 0)).tokens.map Item.token).map Block.strictEvent).map Event.record
      = (c.block (some 0)).tokens.map Token.record := by
    rw [List.map_map, List.map_map]
    rfl
  show (c.block (some 0)).strictLog.map Event.record = _
  rw [Block.strictLog, c.items_block_zero, c.faults_block_zero, c.strict_answer_eq, hsource,
    List.map_append, List.map_append, List.map_cons, List.map_append, htokens]
  cases (c.block none).stream.faults.head? with
  | none => exact congrArg (_ :: · ++ _) (List.append_nil _)
  | some fault => exact List.append_nil _

theorem StandsAt.tellsStrict (hs : s.StandsAt c) {answer : Except Fault (List Token)}
    {log : List Event} (h : s.strict = some (answer, log, t)) :
    ∃ tokens, TellsStrict s tokens answer log := by
  have hreads := Cursor.reads_block (some 0) c
  obtain ⟨run, hover, hcounts⟩ := hs.strict.exists_over h
  obtain ⟨u, hanswers, -⟩ := hs.exists_answers hreads hover hcounts
  obtain ⟨v, -, heq⟩ := hs.strict.of_eq_some h
  obtain ⟨rfl, hrest⟩ := Prod.mk.inj heq
  obtain ⟨rfl, -⟩ := Prod.mk.inj hrest
  refine ⟨(c.block (some 0)).tokens, ?_, ?_, ?_, ?_⟩
  · refine ⟨_, u, hanswers, ?_⟩
    rw [map_fst_placed]
    exact items_block_zero_eq c
  · intro all hall
    rw [c.strict_answer_eq] at hall
    split at hall
    · cases hall
    · exact (Except.ok.inj hall).symm
  · rw [hs.source]
    exact map_record_strictLog c
  · intro stream log' t' hbatch
    have hunlimited : s.unlimited.StandsAt c := ⟨hs.source, hs.mark, hs.took⟩
    obtain ⟨w, -, hwhole⟩ := hunlimited.batch.of_eq_some hbatch
    obtain ⟨hstream, -⟩ := Prod.mk.inj hwhole
    have hstream : stream = (c.block none).stream := hstream
    rw [hstream]
    refine ⟨c.tokensBeforeFault_block_none.symm, ?_⟩
    intro fault
    rw [c.strict_answer_eq]
    cases (c.block none).stream.faults.head? <;> simp

end Scanner

/-- What passes log is what they answer, from wherever steps have led a scanner. A batch pass tells
of its start, then of each token and each fault in the order of their spans, then of its limit if it
has reached it, and of the number of both. A strict pass tells of its start, of each token, and of
their number or of the fault that stopped it, and the tokens are those of a batch pass without a
limit in front of its first fault. No pass breaks down in a source that can be counted. -/
theorem logs_tell_answers {settings : Settings} {source : List Char} {s : Scanner}
    (hs : s.ReachedIn settings source) :
    s.settings = settings ∧ s.source = source ∧
    (∀ stream log t, s.batch = some (stream, log, t) →
      ∃ answers, s.TellsBatch t answers stream log) ∧
    (∀ answer log t, s.strict = some (answer, log, t) →
      ∃ tokens, s.TellsStrict tokens answer log) ∧
    (Location.origin.counts source →
      s.batch.isSome ∧ s.strict.isSome ∧ s.unlimited.batch.isSome) := by
  obtain ⟨x, hsx, rfl, rfl⟩ := hs.exists_follows
  have hstands := hsx.stands
  refine ⟨hsx.settings, hstands.source, ?_, ?_, ?_⟩
  · intro stream log t hbatch
    exact hstands.tellsBatch hbatch
  · intro answer log t hstrict
    exact hstands.tellsStrict hstrict
  · intro hcounts
    have hunlimited : s.unlimited.StandsAt x.cursor :=
      ⟨hstands.source, hstands.mark, hstands.took⟩
    have hahead := hstands.consistent.counts_ahead hcounts
    exact ⟨hstands.batch.isSome hahead, hstands.strict.isSome hahead,
      hunlimited.batch.isSome hahead⟩

/-- From behind the first token, up to the first of two faults. -/
theorem logs_tell_answers_limit :
    let settings : Settings := ⟨.batch, some ⟨1, Nat.one_pos⟩⟩
    let source := "é # ß\n'c".toList
    ∃ s : Scanner, s.ReachedIn settings source ∧ s.source = source ∧
      (∃ stream log t answers, s.batch = some (stream, log, t) ∧
        s.TellsBatch t answers stream log) ∧
      ∃ answer log t tokens, s.strict = some (answer, log, t) ∧
        s.TellsStrict tokens answer log := by
  intro settings source
  have hcounts : Location.origin.counts source := by decide
  obtain ⟨s, -, htrace⟩ :=
    (Scanner.follows_ofSource settings source).trace_eq_some hcounts [.next]
  have hs : s.ReachedIn settings source := ⟨[.next], _, htrace⟩
  obtain ⟨-, hsource, hbatch, hstrict, hcounted⟩ := logs_tell_answers hs
  obtain ⟨hbatch_some, hstrict_some, -⟩ := hcounted hcounts
  obtain ⟨⟨stream, log, t⟩, hstream⟩ := Option.isSome_iff_exists.1 hbatch_some
  obtain ⟨⟨answer, log', t'⟩, hanswer⟩ := Option.isSome_iff_exists.1 hstrict_some
  obtain ⟨answers, htells⟩ := hbatch stream log t hstream
  obtain ⟨tokens, htells'⟩ := hstrict answer log' t' hanswer
  exact ⟨s, hs, hsource, ⟨stream, log, t, answers, hstream, htells⟩,
    answer, log', t', tokens, hanswer, htells'⟩

end SqlScan
