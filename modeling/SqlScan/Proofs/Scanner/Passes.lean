import SqlScan.Proofs.Passes
import SqlScan.Proofs.Scanner.Next
import SqlScan.Scanner.Passes

/-!
# The passes of a scanner

A scanner stands at a cursor if it has the cursor's source, mark and text ahead; the start of its token may
be anywhere. From there it goes where reading from the cursor leads, token by token and then pass by
pass, and gives what a pass over the cursor's block gives, if it can count over the text between.
-/

namespace SqlScan

/-! ### Text gone over -/

namespace Cursor

variable {c d e : Cursor} {run more : List Char}

/-- From one cursor to another there is this text. -/
structure Over (c : Cursor) (run : List Char) (d : Cursor) : Prop where
  ahead : c.ahead = run ++ d.ahead
  mark : d.mark = c.mark.after run

theorem Over.refl (c : Cursor) : c.Over [] c := ⟨rfl, rfl⟩

theorem Over.trans (h : c.Over run d) (hmore : d.Over more e) : c.Over (run ++ more) e where
  ahead := by rw [h.ahead, hmore.ahead, List.append_assoc]
  mark := by rw [hmore.mark, h.mark, Mark.after_append]

theorem Over.unique (h : c.Over run d) (hmore : c.Over more d) : run = more :=
  List.append_cancel_right (h.ahead.symm.trans hmore.ahead)

theorem Over.location (h : c.Over run d) : d.mark.location = c.mark.location.after run := by
  rw [h.mark, Mark.location_after]

end Cursor

/-! ### Blocks with one item more -/

namespace Block

variable (t : Token) (f : Fault) (b : Block)

theorem tokens_cons_token : (b.cons (.token t)).tokens = t :: b.tokens := rfl

theorem faults_cons_token : (b.cons (.token t)).faults = b.faults := rfl

theorem faults_cons_fault : (b.cons (.fault f)).faults = f :: b.faults := rfl

theorem tokens_stream_cons_token :
    (b.cons (.token t)).stream.tokens = t :: b.stream.tokens := rfl

theorem tokens_stream_cons_fault : (b.cons (.fault f)).stream.tokens = b.stream.tokens := rfl

end Block

namespace Scanner

variable {s t : Scanner} {c d e : Cursor}

/-- The scanner is at the cursor, whatever it has taken. -/
structure StandsAt (s : Scanner) (c : Cursor) : Prop where
  source : s.source = c.source
  mark : s.mark = c.mark
  took : ∃ taken, s.Took taken c.ahead

theorem standsAt_ofSource (settings : Settings) (source : List Char) :
    (ofSource settings source).StandsAt (.ofSource source) :=
  ⟨rfl, rfl, [], [], rfl, rfl, rfl⟩

/-- From a cursor a scanner at it goes over some text to another cursor, if the text can be counted, and
gives a value there. -/
def Goes {α : Type} (s : Scanner) (c : Cursor) (result : Option α) (value : Scanner → α)
    (d : Cursor) : Prop :=
  ∃ run t, c.Over run d ∧ t.StandsAt d ∧ t.settings = s.settings ∧
    result = c.mark.location.checked run (value t)

/-- Going on from where a value was given. -/
theorem Goes.bind {α β : Type} {x : Option α} {a : Scanner → α} {b : Scanner → β} {f : α → Option β}
    (h : s.Goes c x a d)
    (hf : ∀ t : Scanner, t.StandsAt d → t.settings = s.settings → t.Goes d (f (a t)) b e) :
    s.Goes c (x >>= f) b e := by
  obtain ⟨run, t, hover, hstands, hsettings, rfl⟩ := h
  obtain ⟨more, u, hmore, hends, hkept, hresult⟩ := hf t hstands hsettings
  refine ⟨run ++ more, u, hover.trans hmore, hends, hkept.trans hsettings, ?_⟩
  rw [hover.location] at hresult
  exact Location.checked_bind hresult

theorem StandsAt.goes {α : Type} {x : Option α} {value : Scanner → α} (h : s.StandsAt c)
    (hx : x = some (value s)) : s.Goes c x value c :=
  ⟨[], s, .refl c, h, rfl, hx⟩

theorem Goes.of_value {α : Type} {x : Option α} {value value' : Scanner → α}
    (h : s.Goes c x value' d) (hvalue : ∀ t, value' t = value t) : s.Goes c x value d := by
  rwa [funext hvalue] at h

theorem Goes.of_eq_some {α : Type} {x : Option α} {value : Scanner → α} {result : α}
    (h : s.Goes c x value d) (hx : x = some result) :
    ∃ t : Scanner, t.StandsAt d ∧ result = value t := by
  obtain ⟨run, t, -, ht, -, hvalue⟩ := h
  rw [hx] at hvalue
  exact ⟨t, ht, (Location.checked_eq_some_iff.1 hvalue.symm).2.symm⟩

theorem Goes.isSome {α : Type} {x : Option α} {value : Scanner → α} (h : s.Goes c x value d)
    (hcounts : c.mark.location.counts c.ahead) : x.isSome := by
  obtain ⟨run, t, hover, -, -, rfl⟩ := h
  rw [hover.ahead, Location.counts_append, Bool.and_eq_true] at hcounts
  rw [Location.checked_of_counts hcounts.1]
  rfl

/-- What goes over all of a source gives a value if the source can be counted. -/
theorem Goes.of_ahead_eq_nil {α : Type} {settings : Settings} {source : List Char} {x : Option α}
    {value : Scanner → α} (h : (ofSource settings source).Goes (.ofSource source) x value d)
    (hd : d.ahead = []) :
    ∃ t, x = Location.origin.checked source (value t) := by
  obtain ⟨run, t, hover, -, -, hx⟩ := h
  have hrun : source = run ++ d.ahead := hover.ahead
  rw [hd, List.append_nil] at hrun
  subst hrun
  exact ⟨t, hx⟩

theorem StandsAt.next (h : s.StandsAt c) : s.Goes c s.next (c.next.1, ·) c.next.2 := by
  obtain ⟨hsource, hmark, taken, htook⟩ := h
  have hcursor : s.cursor c.ahead = c := by rw [cursor, hsource, hmark]
  obtain ⟨run, start, got, hahead, hnext, hnext_mark, hgot⟩ := htook.next
  rw [hcursor] at hahead hnext hnext_mark hgot
  refine ⟨run, { s.moved run with start }, ⟨hahead, ?_⟩, ⟨hsource, ?_, got, hgot⟩, rfl, ?_⟩
  · rw [hnext_mark, hmark]
  · exact hnext_mark.symm
  · rw [hnext, checked, hmark]

/-- The scanner has come to the end of the item that it gave. -/
theorem StandsAt.position_eq_stop (h : t.StandsAt c.next.2) : t.position = c.next.1.span.stop := by
  rw [Cursor.stop_next]
  exact congrArg Mark.offset h.mark

/-- A loop goes on behind everything but the end of the source. -/
theorem StandsAt.goOn {α : Type} (hs : s.StandsAt c) (ht : t.StandsAt c.next.2)
    (hend : c.next.1.isEnd = false) (rest : Option α) : (s.goOn t fun _ => rest) = rest := by
  obtain ⟨taken, hs⟩ := hs.took
  obtain ⟨got, ht⟩ := ht.took
  have hne : c.passed ++ c.covered ≠ [] :=
    List.append_ne_nil_of_right_ne_nil _ (Cursor.covered_ne_nil hend)
  exact hs.goOn ht _ c.ahead_eq.symm hne rest

/-! ### Strict passes -/

/-- What a strict pass logs behind its start, with the tokens before the block. -/
def strictTail (tokens : List Token) (b : Block) : List Event :=
  b.items.map Block.strictEvent
    ++ (if b.faults.isEmpty then [.finished (tokens ++ b.tokens).length] else [])

theorem strictTail_cons (tokens : List Token) (token : Token) (b : Block) :
    strictTail tokens (b.cons (.token token)) =
      .readToken token :: strictTail (tokens ++ [token]) b := by
  rw [strictTail, strictTail, Block.tokens_cons_token, Block.faults_cons_token, List.append_assoc]
  rfl

theorem strictAnswer_cons (tokens : List Token) (token : Token) (b : Block) :
    (b.cons (.token token)).strictAnswer.map (tokens ++ ·) =
      b.strictAnswer.map (tokens ++ [token] ++ ·) := by
  rw [Block.strictAnswer, Block.strictAnswer, Block.tokens_cons_token, Block.faults_cons_token]
  cases b.faults.head? with
  | none => simp [Except.map]
  | some fault => rfl

theorem StandsAt.strictLoop (h : s.StandsAt c) (tokens : List Token) (log : List Event) :
    s.Goes c (s.strictLoop tokens log)
      (fun t => ((c.block (some 0)).strictAnswer.map (tokens ++ ·),
        log ++ strictTail tokens (c.block (some 0)), t))
      (c.block (some 0)).cursor := by
  induction c using Cursor.readInduction generalizing s tokens log with
  | atEnd c hend =>
    obtain ⟨token, htoken⟩ := Item.exists_token_of_isEnd hend
    rw [Cursor.block_of_isEnd hend, Scanner.strictLoop]
    apply h.next.bind
    intro t ht _
    rw [htoken] at hend ⊢
    dsimp only
    have hend : token.isEndOfFile := hend
    rw [if_pos hend]
    apply ht.goes
    simp [Block.strictAnswer, strictTail, Block.faults, Block.tokens, Block.strictEvent, Item.fault?,
      Item.token?, Except.map]
  | atToken c token htoken hend ih =>
    rw [Cursor.block_of_token htoken hend, Scanner.strictLoop]
    apply h.next.bind
    intro t ht _
    have hrest := ih ht (tokens ++ [token]) (log ++ [.readToken token])
    rw [htoken]
    dsimp only
    rw [if_neg (by simp [hend]), h.goOn ht (by rw [htoken]; exact hend)]
    refine hrest.of_value fun u => ?_
    rw [strictTail_cons, strictAnswer_cons, List.append_assoc]
    rfl
  | atFault c fault hfault ih =>
    rw [Cursor.block_zero_of_fault hfault, Scanner.strictLoop]
    apply h.next.bind
    intro t ht _
    rw [hfault]
    apply ht.goes
    simp [Block.strictAnswer, strictTail, Block.faults, Block.strictEvent, Item.fault?, Except.map]

theorem StandsAt.strict (h : s.StandsAt c) :
    s.Goes c s.strict (fun t => (c.strict.answer, c.strict.log, t)) c.strict.cursor := by
  have hloop := h.strictLoop [] [.started .failFast (Text.size s.source)]
  refine hloop.of_value fun t => ?_
  have hanswer : (c.block (some 0)).strictAnswer.map ([] ++ ·) = (c.block (some 0)).strictAnswer := by
    cases (c.block (some 0)).strictAnswer <;> rfl
  rw [hanswer, h.source, ← (Cursor.reads_block (some 0) c).source_eq]
  rfl

/-! ### Batch passes -/

/-- What a batch pass logs behind its start, with the tokens and faults before the block. -/
def batchTail (tokens : List Token) (faults : List Fault) (b : Block) : List Event :=
  b.items.map Block.batchEvent
    ++ (if b.full then [.limitReached (faults ++ b.faults).length] else [])
    ++ [.finishedBatch (tokens ++ b.stream.tokens).length (faults ++ b.faults).length]

/-- How many more faults a pass passes over that has met some. -/
def spare (limit : Option FaultLimit) (faults : List Fault) : Option Nat :=
  limit.map fun l => l.count - 1 - faults.length

theorem batchTail_cons_token (tokens : List Token) (faults : List Fault) (token : Token)
    (b : Block) : batchTail tokens faults (b.cons (.token token)) =
      .readToken token :: batchTail (tokens ++ [token]) faults b := by
  rw [batchTail, batchTail, Block.faults_cons_token, Block.tokens_stream_cons_token,
    List.append_assoc tokens]
  rfl

theorem batchTail_cons_fault (tokens : List Token) (faults : List Fault) (fault : Fault)
    (b : Block) : batchTail tokens faults (b.cons (.fault fault)) =
      .recovered fault fault.span.stop :: batchTail tokens (faults ++ [fault]) b := by
  rw [batchTail, batchTail, Block.faults_cons_fault, Block.tokens_stream_cons_fault,
    List.append_assoc faults]
  rfl

/-- The fault that reaches the limit ends the block. -/
theorem block_of_limited {faults : List Fault} {fault : Fault} (hfault : c.next.1 = .fault fault)
    (hlimited : s.limited (faults ++ [fault])) :
    c.block (spare s.settings.limit faults) = ⟨[.fault fault], true, c.next.2⟩ := by
  have hspare : spare s.settings.limit faults = some 0 := by
    rw [limited] at hlimited
    rw [spare]
    cases hlimit : s.settings.limit with
    | none => simp [hlimit] at hlimited
    | some l =>
      rw [hlimit, Option.any_some, decide_eq_true_eq, List.length_append,
        List.length_singleton] at hlimited
      have hlast : l.count - 1 - faults.length = 0 := by omega
      exact congrArg some hlast
  rw [hspare, Cursor.block_zero_of_fault hfault]

/-- Behind any other fault the block goes on, with one fault less to pass over. -/
theorem block_of_not_limited {faults : List Fault} {fault : Fault} (hfault : c.next.1 = .fault fault)
    (hlimited : ¬ s.limited (faults ++ [fault])) :
    (∀ l ∈ s.settings.limit, (faults ++ [fault]).length < l.count) ∧
      c.block (spare s.settings.limit faults) =
        (c.next.2.block (spare s.settings.limit (faults ++ [fault]))).cons (.fault fault) := by
  rw [limited] at hlimited
  cases hlimit : s.settings.limit with
  | none =>
    exact ⟨by simp, Cursor.block_none_of_fault hfault⟩
  | some l =>
    rw [hlimit, Option.any_some, decide_eq_true_eq, List.length_append,
      List.length_singleton] at hlimited
    have hless : l.count - 1 - faults.length = l.count - 1 - (faults ++ [fault]).length + 1 := by
      rw [List.length_append, List.length_singleton]
      omega
    have hspare : spare (some l) faults = some (l.count - 1 - (faults ++ [fault]).length + 1) :=
      congrArg some hless
    refine ⟨?_, ?_⟩
    · intro m hm
      obtain rfl := Option.some.inj hm
      rw [List.length_append, List.length_singleton]
      omega
    · rw [hspare, Cursor.block_succ_of_fault hfault]
      rfl

theorem StandsAt.batchLoop (h : s.StandsAt c) (tokens : List Token) (faults : List Fault)
    (log : List Event) (hfaults : ∀ l ∈ s.settings.limit, faults.length < l.count) :
    s.Goes c (s.batchLoop tokens faults log)
      (fun t => (⟨tokens ++ (c.block (spare s.settings.limit faults)).stream.tokens,
          faults ++ (c.block (spare s.settings.limit faults)).faults⟩,
        log ++ batchTail tokens faults (c.block (spare s.settings.limit faults)), t))
      (c.block (spare s.settings.limit faults)).cursor := by
  induction c using Cursor.readInduction generalizing s tokens faults log with
  | atEnd c hend =>
    obtain ⟨token, htoken⟩ := Item.exists_token_of_isEnd hend
    rw [Cursor.block_of_isEnd hend, Scanner.batchLoop]
    apply h.next.bind
    intro t ht _
    rw [htoken] at hend ⊢
    dsimp only
    have hend : token.isEndOfFile := hend
    rw [if_pos hend]
    apply ht.goes
    simp [batchTail, Block.stream, Block.faults, Block.tokens, Block.batchEvent, Item.fault?,
      Item.token?]
  | atToken c token htoken hend ih =>
    rw [Cursor.block_of_token htoken hend, Scanner.batchLoop]
    apply h.next.bind
    intro t ht hsettings
    have hrest := ih ht (tokens ++ [token]) faults (log ++ [.readToken token]) (hsettings ▸ hfaults)
    rw [hsettings] at hrest
    rw [htoken]
    dsimp only
    rw [if_neg (by simp [hend]), h.goOn ht (by rw [htoken]; exact hend)]
    refine hrest.of_value fun u => ?_
    rw [batchTail_cons_token, Block.tokens_stream_cons_token, Block.faults_cons_token,
      List.append_assoc, List.append_assoc]
    rfl
  | atFault c fault hfault ih =>
    by_cases hlimited : s.limited (faults ++ [fault])
    · rw [block_of_limited hfault hlimited, Scanner.batchLoop]
      apply h.next.bind
      intro t ht hsettings
      have hlimited : t.limited (faults ++ [fault]) := by rwa [limited, hsettings]
      have hplace := ht.position_eq_stop
      rw [hfault] at hplace ⊢
      have hplace : t.position = fault.span.stop := hplace
      dsimp only
      rw [if_pos hlimited, hplace]
      apply ht.goes
      simp [batchTail, Block.stream, Block.faults, Block.tokens, Block.batchEvent, Item.fault?,
        Item.token?, ht.mark]
    · obtain ⟨hmore, hblock⟩ := block_of_not_limited hfault hlimited
      rw [hblock, Scanner.batchLoop]
      apply h.next.bind
      intro t ht hsettings
      have hrest := ih ht tokens (faults ++ [fault]) (log ++ [.recovered fault fault.span.stop])
        (hsettings ▸ hmore)
      have hlimited : ¬ t.limited (faults ++ [fault]) := by rwa [limited, hsettings]
      have hplace := ht.position_eq_stop
      rw [hsettings] at hrest
      rw [hfault] at hplace ⊢
      have hplace : t.position = fault.span.stop := hplace
      dsimp only
      rw [if_neg hlimited, hplace, h.goOn ht (by rw [hfault]; rfl)]
      refine hrest.of_value fun u => ?_
      rw [batchTail_cons_fault, Block.tokens_stream_cons_fault, Block.faults_cons_fault,
        List.append_assoc, List.append_assoc]
      rfl

theorem StandsAt.batch (h : s.StandsAt c) :
    s.Goes c s.batch
      (fun t => ((c.batch s.settings.limit).answer, (c.batch s.settings.limit).log, t))
      (c.batch s.settings.limit).cursor := by
  have hpositive : ∀ l ∈ s.settings.limit, ([] : List Fault).length < l.count :=
    fun l _ => l.count_pos
  have hloop := h.batchLoop [] [] [.started .batch (Text.size s.source)] hpositive
  have hspare : spare s.settings.limit [] = s.settings.limit.map fun l => l.count - 1 := rfl
  rw [hspare] at hloop
  refine hloop.of_value fun t => ?_
  rw [h.source, ← (Cursor.reads_block (s.settings.limit.map fun l => l.count - 1) c).source_eq]
  rfl

theorem StandsAt.run (h : s.StandsAt c) :
    s.Goes c s.run (fun t => ((c.run s.settings).answer, (c.run s.settings).log, t))
      (c.run s.settings).cursor := by
  rw [Scanner.run, Cursor.run]
  cases s.settings.mode with
  | failFast => exact h.strict.bind fun t ht _ => ht.goes rfl
  | batch => exact h.batch.bind fun t ht _ => ht.goes rfl

end Scanner

end SqlScan
