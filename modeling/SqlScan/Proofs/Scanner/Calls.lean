import SqlScan.Proofs.Scanner.Restarts
import SqlScan.Proofs.Sequence

/-!
# Calls that share one sequence

A source is read as one sequence of items, whatever calls read it. A call that does not seek takes
the items from where the call before it stopped up to its own stopping place: one item, or all up to the
first fault, or up to the fault that reaches the limit, or up to the end. It answers exactly these.
So limited batch passes in a row, as many as the faults ask for, answer together what one pass
without a limit answers.
-/

namespace SqlScan

open Cursor (Reads)

/-- The byte offset behind so many items of a sequence. -/
def placeIn (items : Nat → Item) : Nat → Nat
  | 0 => 0
  | n + 1 => (items n).span.stop

/-- From an item of the sequence on, a step takes so many items and replies to them. -/
inductive Step.Takes (source : List Char) (settings : Settings) (items : Nat → Item) (first : Nat) :
    Step → Nat → Reply → Prop where
  | next : Takes source settings items first .next 1 (.item (items first))
  | strict {count : Nat} (h : FirstStop (some 1) items first count) :
      Takes source settings items first .strict count
        (.tokens (strictAnswerOf (window items first count)))
  | batch {count : Nat} (h : FirstStop (settings.limit.map FaultLimit.count) items first count) :
      Takes source settings items first .batch count
        (.stream (.ok (streamOf source (window items first count))))
  | run_failFast {count : Nat} {answer : Except Fault (List Token)}
      (hmode : settings.mode = .failFast)
      (h : Takes source settings items first .strict count (.tokens answer)) :
      Takes source settings items first .run count
        (.stream (answer.map fun tokens => ⟨tokens, []⟩))
  | run_batch {count : Nat} {reply : Reply} (hmode : settings.mode = .batch)
      (h : Takes source settings items first .batch count reply) :
      Takes source settings items first .run count reply
  | position : Takes source settings items first .position 0 .position
  | settings : Takes source settings items first .settings 0 (.settings settings)

/-- Each step takes its items from where the step before it stopped, and leads behind them. -/
inductive Step.TakeInTurn (source : List Char) (settings : Settings) (items : Nat → Item) :
    Nat → List Step → List Outcome → Prop where
  | nil (first : Nat) : TakeInTurn source settings items first [] []
  | cons {first count : Nat} {step : Step} {reply : Reply} {log : List Event} {steps : List Step}
      {outcomes : List Outcome} (htakes : Takes source settings items first step count reply)
      (hrest : TakeInTurn source settings items (first + count) steps outcomes) :
      TakeInTurn source settings items first (step :: steps)
        (⟨reply, log, placeIn items (first + count)⟩ :: outcomes)

/-! ### Sessions -/

theorem Cursor.position_skip (source : List Char) (n : Nat) :
    ((ofSource source).skip n).position = placeIn (ofSource source).item n := by
  cases n with
  | zero => rfl
  | succ n => exact (stop_next _).symm

namespace Session

variable {source : List Char} {x : Session} {step : Step} {steps : List Step} {first : Nat}

theorem takes_strict (hx : x.cursor = (Cursor.ofSource source).skip first) :
    ∃ count, Step.Takes source x.settings (Cursor.ofSource source).item first .strict count
        (.tokens x.cursor.strict.answer) ∧
      x.cursor.strict.cursor = (Cursor.ofSource source).skip (first + count) := by
  obtain ⟨count, hstop, hitems, hcursor⟩ := (Cursor.ofSource source).firstStop_block first (some 0)
  obtain ⟨before, last, h⟩ := Cursor.exists_stopsAt (some 0) x.cursor
  rw [← hx] at hitems hcursor
  have hanswer : x.cursor.strict.answer = strictAnswerOf (x.cursor.block (some 0)).items :=
    h.strictAnswer_eq
  refine ⟨count, ?_, hcursor⟩
  rw [hanswer, hitems]
  exact .strict hstop

theorem takes_batch (hx : x.cursor = (Cursor.ofSource source).skip first) :
    ∃ count, Step.Takes source x.settings (Cursor.ofSource source).item first .batch count
        (.stream (.ok (x.cursor.batch x.settings.limit).answer)) ∧
      (x.cursor.batch x.settings.limit).cursor = (Cursor.ofSource source).skip (first + count) := by
  let spare := x.settings.limit.map fun l => l.count - 1
  have hspare : spare.map (· + 1) = x.settings.limit.map FaultLimit.count := by
    rw [Option.map_map]
    congr 1
    funext l
    exact Nat.sub_add_cancel l.count_pos
  obtain ⟨count, hstop, hitems, hcursor⟩ := (Cursor.ofSource source).firstStop_block first spare
  obtain ⟨before, last, h⟩ := Cursor.exists_stopsAt spare x.cursor
  obtain ⟨hconsistent, hsource⟩ :=
    Cursor.consistent_skip (Cursor.consistent_ofSource source) first
  rw [← hx] at hitems hcursor hconsistent hsource
  rw [hspare] at hstop
  have hanswer : (x.cursor.batch x.settings.limit).answer
      = streamOf x.cursor.source (x.cursor.block spare).items := h.stream_eq hconsistent
  refine ⟨count, ?_, hcursor⟩
  rw [hanswer, hitems, hsource]
  exact .batch hstop

/-- A step that does not seek takes the next items of the sequence. -/
theorem takes_perform (hx : x.cursor = (Cursor.ofSource source).skip first)
    (hstep : ∀ offset, step ≠ .seek offset) :
    ∃ count, Step.Takes source x.settings (Cursor.ofSource source).item first step count
        (x.perform step).1 ∧
      (x.perform step).2.2.cursor = (Cursor.ofSource source).skip (first + count) := by
  cases step with
  | next =>
    refine ⟨1, ?_, congrArg (fun c => c.next.2) hx⟩
    have hitem : (x.perform .next).1 = .item ((Cursor.ofSource source).item first) :=
      congrArg (fun c : Cursor => Reply.item c.next.1) hx
    rw [hitem]
    exact .next
  | seek offset => exact absurd rfl (hstep offset)
  | position => exact ⟨0, .position, hx⟩
  | settings => exact ⟨0, .settings, hx⟩
  | strict => exact takes_strict hx
  | batch => exact takes_batch hx
  | run =>
    unfold perform Cursor.run
    cases hmode : x.settings.mode with
    | failFast =>
      obtain ⟨count, htakes, hcursor⟩ := takes_strict hx
      exact ⟨count, .run_failFast hmode htakes, hcursor⟩
    | batch =>
      obtain ⟨count, htakes, hcursor⟩ := takes_batch hx
      exact ⟨count, .run_batch hmode htakes, hcursor⟩

theorem takeInTurn_trace (hx : x.cursor = (Cursor.ofSource source).skip first)
    (hsteps : ∀ offset, .seek offset ∉ steps) :
    Step.TakeInTurn source x.settings (Cursor.ofSource source).item first steps
      (x.trace steps).1 := by
  induction steps generalizing x first with
  | nil => exact .nil first
  | cons step steps ih =>
    obtain ⟨count, htakes, hcursor⟩ :=
      takes_perform hx fun offset h => hsteps offset (h ▸ List.mem_cons_self)
    have hrest := ih hcursor fun offset h => hsteps offset (List.mem_cons_of_mem _ h)
    rw [x.settings_perform step] at hrest
    have hplace : (x.perform step).2.2.position
        = placeIn (Cursor.ofSource source).item (first + count) := by
      rw [position, hcursor, Cursor.position_skip]
    rw [trace]
    dsimp only
    rw [hplace]
    exact .cons htakes hrest

/-! ### Limited passes in a row -/

theorem replies_batch {limit : FaultLimit} (hlimit : x.settings.limit = some limit)
    (steps : List Step) :
    (x.trace (.batch :: steps)).1.map Outcome.reply =
      .stream (.ok (x.cursor.block (some (limit.count - 1))).stream) ::
        ((x.moveTo (x.cursor.block (some (limit.count - 1))).cursor).trace steps).1.map
          Outcome.reply := by
  have hspare : x.settings.limit.map (fun l => l.count - 1) = some (limit.count - 1) := by
    rw [hlimit]
    rfl
  rw [trace, perform, Cursor.batch, hspare]
  rfl

/-- As many limited passes as the faults ask for answer together what one pass without a limit
answers. -/
theorem exists_streams {limit : FaultLimit} (hlimit : x.settings.limit = some limit) {k : Nat}
    (hk : (x.cursor.block none).faults.length / limit.count = k) :
    ∃ streams : List TokenStream,
      (x.trace (List.replicate (k + 1) .batch)).1.map Outcome.reply
        = streams.map (fun stream => .stream (.ok stream)) ∧
      streams.flatMap TokenStream.faults = (x.cursor.block none).faults ∧
      streams.flatMap TokenStream.body = (x.cursor.block none).stream.body := by
  have hcount := limit.count_pos
  have hsucc : limit.count - 1 + 1 = limit.count := Nat.sub_add_cancel hcount
  induction k generalizing x with
  | zero =>
    have hfew : (x.cursor.block none).faults.length ≤ limit.count - 1 := by
      have hlt := (Nat.div_eq_zero_iff_lt hcount).1 hk
      omega
    refine ⟨[(x.cursor.block none).stream], ?_, List.append_nil _, List.append_nil _⟩
    rw [List.replicate_succ, replies_batch hlimit, Cursor.block_some_of_length_le hfew]
    rfl
  | succ k ih =>
    have hmany : limit.count - 1 < (x.cursor.block none).faults.length := by
      have hle : 1 * limit.count ≤ (x.cursor.block none).faults.length :=
        (Nat.le_div_iff_mul_le hcount).1 (by omega)
      omega
    obtain ⟨hfull, hlength⟩ := Cursor.full_block_some hmany
    obtain ⟨hfaults, hbody⟩ := Cursor.block_none_of_full hfull
    rw [hsucc] at hlength
    have hleft : (((x.cursor.block (some (limit.count - 1))).cursor.block none).faults.length
        / limit.count) = k := by
      rw [hfaults, List.length_append, hlength, Nat.add_div_left _ hcount] at hk
      exact Nat.succ.inj hk
    obtain ⟨streams, hreplies, hfaults', hbody'⟩ :=
      ih (x := x.moveTo (x.cursor.block (some (limit.count - 1))).cursor) hlimit hleft
    refine ⟨(x.cursor.block (some (limit.count - 1))).stream :: streams, ?_, ?_, ?_⟩
    · rw [List.replicate_succ, replies_batch hlimit, hreplies]
      rfl
    · rw [List.flatMap_cons, hfaults', hfaults]
      rfl
    · rw [List.flatMap_cons, hbody', hbody]
      rfl

end Session

/-- Taking items one by one shows the sequence itself. -/
theorem Step.TakeInTurn.replies_next {source : List Char} {settings : Settings} {items : Nat → Item}
    {first count : Nat} {outcomes : List Outcome}
    (h : TakeInTurn source settings items first (List.replicate count .next) outcomes) :
    outcomes.map Outcome.reply = (window items first count).map .item := by
  induction count generalizing first outcomes with
  | zero =>
    cases h
    rfl
  | succ count ih =>
    rw [List.replicate_succ] at h
    cases h with
    | cons htakes hrest =>
      cases htakes
      rw [window_succ, List.map_cons, List.map_cons, ih hrest]

/-! ### Scanners -/

namespace Scanner

variable {settings : Settings} {source : List Char}

/-- An unlimited batch pass answers for a source if it can count over all of it. -/
theorem exists_batch_iff {mode : Mode} {whole : TokenStream} :
    (∃ log last, (ofSource ⟨mode, none⟩ source).batch = some (whole, log, last)) ↔
      Location.origin.counts source ∧ ((Cursor.ofSource source).batch none).answer = whole := by
  have hgoes := (standsAt_ofSource ⟨mode, none⟩ source).batch
  obtain ⟨t, hbatch⟩ := hgoes.of_ahead_eq_nil (Cursor.ahead_block_none _)
  rw [hbatch]
  constructor
  · rintro ⟨log, last, h⟩
    obtain ⟨hcounts, heq⟩ := Location.checked_eq_some_iff.1 h
    exact ⟨hcounts, (Prod.mk.inj heq).1⟩
  · rintro ⟨hcounts, rfl⟩
    exact ⟨_, t, Location.checked_of_counts hcounts _⟩

theorem takeInTurn_of_trace {steps : List Step} {outcomes : List Outcome} {s : Scanner}
    (hsteps : ∀ offset, .seek offset ∉ steps)
    (htrace : (ofSource settings source).trace steps = some (outcomes, s)) :
    Step.TakeInTurn source settings (Cursor.ofSource source).item 0 steps outcomes := by
  obtain ⟨rfl, -⟩ := (follows_ofSource settings source).of_trace htrace
  exact Session.takeInTurn_trace (x := .ofSource settings source) rfl hsteps

end Scanner

/-- Whatever calls a scanner takes that do not seek, each answers the next items of the sequence that
calls for one item at a time show, and stops at its own stopping place. Limited passes in a row, one
more than the limit goes into the faults, lose and repeat nothing. -/
theorem calls_take_in_turn (settings : Settings) (source : List Char) :
    let items := (Cursor.ofSource source).item
    let scanner := Scanner.ofSource settings source
    (∀ count outcomes s, scanner.trace (List.replicate count .next) = some (outcomes, s) →
      outcomes.map Outcome.reply = (window items 0 count).map .item) ∧
    (∀ steps outcomes s, (∀ offset, .seek offset ∉ steps) →
      scanner.trace steps = some (outcomes, s) →
        Step.TakeInTurn source settings items 0 steps outcomes) ∧
    (Location.origin.counts source → ∀ steps, ∃ outcomes s,
      scanner.trace steps = some (outcomes, s)) ∧
    ∀ limit, settings.limit = some limit → ∀ whole log last,
      (Scanner.ofSource { settings with limit := none } source).batch = some (whole, log, last) →
        ∃ outcomes s, ∃ streams : List TokenStream,
          scanner.trace (List.replicate (whole.faults.length / limit.count + 1) .batch)
            = some (outcomes, s) ∧
          outcomes.map Outcome.reply = streams.map (fun stream => .stream (.ok stream)) ∧
          streams.flatMap TokenStream.faults = whole.faults ∧
          streams.flatMap TokenStream.body = whole.body := by
  intro items scanner
  have hfollows := Scanner.follows_ofSource settings source
  refine ⟨?_, ?_, ?_, ?_⟩
  · intro count outcomes s htrace
    apply Step.TakeInTurn.replies_next
    exact Scanner.takeInTurn_of_trace (by simp [List.mem_replicate]) htrace
  · intro steps outcomes s hsteps htrace
    exact Scanner.takeInTurn_of_trace hsteps htrace
  · intro hcounts steps
    obtain ⟨s, -, htrace⟩ := hfollows.trace_eq_some hcounts steps
    exact ⟨_, s, htrace⟩
  · intro limit hlimit whole log last hwhole
    obtain ⟨hcounts, rfl⟩ := Scanner.exists_batch_iff.1 ⟨log, last, hwhole⟩
    obtain ⟨streams, hreplies, hfaults, hbody⟩ :=
      Session.exists_streams (x := .ofSource settings source) hlimit rfl
    obtain ⟨s, -, htrace⟩ := hfollows.trace_eq_some hcounts (List.replicate
      (((Cursor.ofSource source).batch none).answer.faults.length / limit.count + 1) .batch)
    exact ⟨_, s, streams, htrace, hreplies, hfaults, hbody⟩

/-- Three faults are two passes for a limit of two, and passes and calls for one item take turns. -/
theorem calls_take_in_turn_limited :
    let source := "é # b.c ! 'd".toList
    let settings : Settings := ⟨.batch, some ⟨2, by decide⟩⟩
    let steps : List Step := [.next, .strict, .run, .settings, .batch, .next]
    ∃ outcomes s whole log last, (∀ offset, .seek offset ∉ steps) ∧
      Location.origin.counts source ∧
      (Scanner.ofSource settings source).trace steps = some (outcomes, s) ∧
      Step.TakeInTurn source settings (Cursor.ofSource source).item 0 steps outcomes ∧
      (Scanner.ofSource ⟨.batch, none⟩ source).batch = some (whole, log, last) ∧
      whole.faults.length = 3 ∧
      ∃ outcomes s, ∃ streams : List TokenStream,
        (Scanner.ofSource settings source).trace [.batch, .batch] = some (outcomes, s) ∧
        outcomes.map Outcome.reply = streams.map (fun stream => .stream (.ok stream)) ∧
        streams.flatMap TokenStream.faults = whole.faults ∧
        streams.flatMap TokenStream.body = whole.body := by
  intro source settings steps
  have hcounts : Location.origin.counts source := by decide
  have hsteps : ∀ offset, .seek offset ∉ steps := by simp [steps]
  have hthree : ((Cursor.ofSource source).batch none).answer.faults.length = 3 := by
    decide +kernel
  obtain ⟨-, htake, htrace, hlimited⟩ := calls_take_in_turn settings source
  obtain ⟨outcomes, s, houtcomes⟩ := htrace hcounts steps
  have hbatch : ∃ log last, (Scanner.ofSource ⟨.batch, none⟩ source).batch
      = some (((Cursor.ofSource source).batch none).answer, log, last) :=
    Scanner.exists_batch_iff.2 ⟨hcounts, rfl⟩
  obtain ⟨log, last, hwhole⟩ := hbatch
  have hturn := htake steps outcomes s hsteps houtcomes
  have hpasses := hlimited _ rfl _ log last hwhole
  rw [hthree] at hpasses
  exact ⟨outcomes, s, _, log, last, hsteps, hcounts, houtcomes, hturn, hwhole, hthree, hpasses⟩

end SqlScan
