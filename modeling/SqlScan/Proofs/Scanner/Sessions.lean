import SqlScan.Proofs.Recovery
import SqlScan.Proofs.Scanner.Passes

/-!
# A scanner follows a session

A scanner follows a session if it has the session's settings and stands at its cursor. A step of it then
replies and logs what the session does, and it follows the session after the step, if it can count over
a part of the source; and which part that is the session decides. So two scanners that follow one
session cannot be told apart, and in a source that can be counted no step breaks down. A whole source is
one such step, and a batch pass without a limit counts over all of it.
-/

namespace SqlScan

open Cursor (Reads)

theorem Cursor.Reads.exists_over {c d : Cursor} {items : List Item} (h : Reads c items d) :
    ∃ run, c.Over run d := by
  induction h with
  | stop c => exact ⟨[], .refl c⟩
  | @step c d items _ ih =>
    obtain ⟨more, hmore⟩ := ih
    have hstep : c.Over (c.passed ++ c.covered) c.next.2 :=
      ⟨c.ahead_eq, (Mark.after_append c.mark c.passed c.covered).symm⟩
    exact ⟨_, hstep.trans hmore⟩

theorem Cursor.exists_reads_run (settings : Settings) (c : Cursor) :
    ∃ items, Reads c items (c.run settings).cursor := by
  rw [run]
  cases settings.mode with
  | failFast => exact ⟨_, reads_block (some 0) c⟩
  | batch => exact ⟨_, reads_block _ c⟩

namespace Scanner

variable {s t : Scanner} {x y : Session} {step : Step} {steps : List Step}

theorem StandsAt.consistent {c : Cursor} (h : s.StandsAt c) : c.Consistent := by
  obtain ⟨taken, htook⟩ := h.took
  obtain ⟨seen, hsource, hmark⟩ := htook.exists_seen
  exact ⟨seen, h.source.symm.trans hsource, h.mark.symm.trans hmark⟩

structure Follows (s : Scanner) (x : Session) : Prop where
  settings : s.settings = x.settings
  stands : s.StandsAt x.cursor

theorem follows_ofSource (settings : Settings) (source : List Char) :
    (ofSource settings source).Follows (.ofSource settings source) :=
  ⟨rfl, standsAt_ofSource settings source⟩

theorem Follows.position_eq (h : s.Follows x) : s.position = x.position :=
  congrArg Mark.offset h.stands.mark

/-! ### One step -/

/-- A step counts over a text from a location on, and does what the session does if it can. -/
def Counts (x : Session) (step : Step) (l : Location) (run : List Char) : Prop :=
  ∀ s : Scanner, s.Follows x → ∃ t : Scanner, t.Follows (x.perform step).2.2 ∧
    s.perform step = l.checked run ((x.perform step).1, (x.perform step).2.1, t)

/-- A step that reads on counts over what it reads. -/
theorem exists_counts_of_goes {items : List Item} {d : Cursor} (hx : x.cursor.Consistent)
    (hreads : Reads x.cursor items d) (hd : (x.perform step).2.2 = x.moveTo d)
    (hgoes : ∀ s : Scanner, s.Follows x →
      s.Goes x.cursor (s.perform step) (((x.perform step).1, (x.perform step).2.1, ·)) d) :
    ∃ seen run behind, x.cursor.source = seen ++ run ++ behind ∧
      Counts x step (Location.origin.after seen) run := by
  obtain ⟨seen, hsource, hmark⟩ := hx
  obtain ⟨run, hover⟩ := hreads.exists_over
  refine ⟨seen, run, d.ahead, by rw [hsource, hover.ahead, List.append_assoc], ?_⟩
  intro s hs
  obtain ⟨more, t, hmore, hstands, hsettings, hperform⟩ := hgoes s hs
  obtain rfl := hover.unique hmore
  rw [hmark, Mark.location_after] at hperform
  refine ⟨t, ?_, hperform⟩
  rw [hd]
  exact ⟨hsettings.trans hs.settings, hstands⟩

/-- A step that goes nowhere counts nothing. -/
theorem exists_counts_of_stays (hsession : (x.perform step).2.2 = x)
    (hstays : ∀ s : Scanner, s.Follows x →
      s.perform step = some ((x.perform step).1, (x.perform step).2.1, s)) :
    ∃ seen run behind, x.cursor.source = seen ++ run ++ behind ∧
      Counts x step (Location.origin.after seen) run := by
  refine ⟨[], [], x.cursor.source, rfl, ?_⟩
  intro s hs
  refine ⟨s, ?_, hstays s hs⟩
  rw [hsession]
  exact hs

/-- Seeking a character boundary counts over all of the text before it. -/
theorem counts_of_seek {seen behind : List Char}
    (hsource : x.cursor.source = seen ++ behind) :
    Counts x (.seek (Text.size seen)) .origin seen := by
  have hcut := Text.cut?_append seen behind
  have hseek : x.perform (.seek (Text.size seen)) =
      (.moved true, [], x.moveTo ⟨x.cursor.source, Mark.origin.after seen, behind⟩) := by
    rw [Session.perform, Cursor.seek?, hsource, hcut]
    rfl
  intro s hs
  have hs_source : s.source = seen ++ behind := hs.stands.source.trans hsource
  refine ⟨{ s with mark := Mark.origin.after seen, start := Mark.origin.after seen }, ?_, ?_⟩
  · rw [hseek]
    rw [← List.append_nil seen] at hs_source
    exact ⟨hs.settings, hs.stands.source, rfl, [], seen, hs_source, rfl, rfl⟩
  · rw [hseek, perform, s.seek_append hs_source]
    exact Location.checked_bind_some rfl

/-- What a step counts over is a part of the source, whichever scanner takes it. -/
theorem exists_counts (hx : x.cursor.Consistent) (step : Step) :
    ∃ seen run behind, x.cursor.source = seen ++ run ++ behind ∧
      Counts x step (Location.origin.after seen) run := by
  cases step with
  | next =>
    apply exists_counts_of_goes hx (.step (.stop x.cursor.next.2)) rfl
    exact fun s hs => hs.stands.next.bind fun t ht _ => ht.goes rfl
  | seek offset =>
    cases hcut : Text.cut? offset x.cursor.source with
    | none =>
      have hseek : x.perform (.seek offset) = (.moved false, [], x) := by
        rw [Session.perform, Cursor.seek?, hcut]
        rfl
      apply exists_counts_of_stays
      · rw [hseek]
      · intro s hs
        rw [← hs.stands.source] at hcut
        rw [hseek, perform, seek_of_cut?_eq_none hcut]
        rfl
    | some parts =>
      obtain ⟨hsource, rfl⟩ := Text.append_of_cut? hcut
      exact ⟨[], parts.1, parts.2, hsource.symm, counts_of_seek hsource.symm⟩
  | position => exact exists_counts_of_stays rfl fun s _ => rfl
  | settings =>
    apply exists_counts_of_stays rfl
    intro s hs
    rw [perform, hs.settings]
    rfl
  | strict =>
    apply exists_counts_of_goes hx (Cursor.reads_block (some 0) x.cursor) rfl
    exact fun s hs => hs.stands.strict.bind fun t ht _ => ht.goes rfl
  | batch =>
    apply exists_counts_of_goes hx (Cursor.reads_block _ x.cursor) rfl
    intro s hs
    have hbatch := hs.stands.batch
    rw [hs.settings] at hbatch
    exact hbatch.bind fun t ht _ => ht.goes rfl
  | run =>
    obtain ⟨items, hreads⟩ := Cursor.exists_reads_run x.settings x.cursor
    apply exists_counts_of_goes hx hreads rfl
    intro s hs
    have hrun := hs.stands.run
    rw [hs.settings] at hrun
    exact hrun.bind fun t ht _ => ht.goes rfl

/-- A step that does not break down does what the session does. -/
theorem Follows.of_perform {reply : Reply} {log : List Event} (h : s.Follows x)
    (hperform : s.perform step = some (reply, log, t)) :
    reply = (x.perform step).1 ∧ log = (x.perform step).2.1 ∧ t.Follows (x.perform step).2.2 := by
  obtain ⟨seen, run, behind, -, hcounts⟩ := exists_counts h.stands.consistent step
  obtain ⟨u, hu, heq⟩ := hcounts s h
  rw [hperform] at heq
  cases (Location.checked_eq_some_iff.1 heq.symm).2
  exact ⟨rfl, rfl, hu⟩

/-- In a source that can be counted no step breaks down. -/
theorem Follows.perform_eq_some (h : s.Follows x) (hsource : Location.origin.counts x.cursor.source)
    (step : Step) : ∃ t : Scanner, t.Follows (x.perform step).2.2 ∧
      s.perform step = some ((x.perform step).1, (x.perform step).2.1, t) := by
  obtain ⟨seen, run, behind, hparts, hcounts⟩ := exists_counts h.stands.consistent step
  obtain ⟨t, ht, hperform⟩ := hcounts s h
  rw [hparts, Location.counts_append, Location.counts_append, Bool.and_eq_true,
    Bool.and_eq_true] at hsource
  exact ⟨t, ht, hperform.trans (Location.checked_of_counts hsource.1.2 _)⟩

/-- Of two scanners that follow one session both break down at a step or none does. -/
theorem Follows.perform_eq_none (hs : s.Follows x) (ht : t.Follows x)
    (h : s.perform step = none) : t.perform step = none := by
  obtain ⟨seen, run, behind, -, hcounts⟩ := exists_counts hs.stands.consistent step
  obtain ⟨s', -, hs'⟩ := hcounts s hs
  obtain ⟨t', -, ht'⟩ := hcounts t ht
  rw [ht']
  exact Location.checked_eq_none_iff.2 (Location.checked_eq_none_iff.1 (hs'.symm.trans h))

/-! ### Many steps -/

theorem trace_of_perform {reply : Reply} {log : List Event}
    (h : s.perform step = some (reply, log, t)) (steps : List Step) :
    s.trace (step :: steps) =
      (t.trace steps).map fun after => (⟨reply, log, t.position⟩ :: after.1, after.2) := by
  rw [trace, h]
  show (t.trace steps >>= _) = _
  cases t.trace steps <;> rfl

theorem trace_of_perform_eq_none (h : s.perform step = none) (steps : List Step) :
    s.trace (step :: steps) = none := by
  rw [trace, h]
  rfl

/-- In a source that can be counted a scanner does what the session does, to the end. -/
theorem Follows.trace_eq_some (h : s.Follows x) (hsource : Location.origin.counts x.cursor.source)
    (steps : List Step) : ∃ t : Scanner, t.Follows (x.trace steps).2 ∧
      s.trace steps = some ((x.trace steps).1, t) := by
  induction steps generalizing s x with
  | nil => exact ⟨s, h, rfl⟩
  | cons step steps ih =>
    obtain ⟨t, ht, hperform⟩ := h.perform_eq_some hsource step
    rw [← (Session.consistent_perform h.stands.consistent step).2] at hsource
    obtain ⟨u, hu, htrace⟩ := ih ht hsource
    refine ⟨u, hu, ?_⟩
    rw [trace_of_perform hperform, htrace, Option.map_some, ht.position_eq]
    rfl

/-- Steps that do not break down show what the session shows and lead a scanner along with it. -/
theorem Follows.of_trace {outcomes : List Outcome} (h : s.Follows x)
    (htrace : s.trace steps = some (outcomes, t)) :
    outcomes = (x.trace steps).1 ∧ t.Follows (x.trace steps).2 := by
  induction steps generalizing s x outcomes with
  | nil =>
    rw [trace, Option.some.injEq, Prod.mk.injEq] at htrace
    exact ⟨htrace.1.symm, htrace.2 ▸ h⟩
  | cons step steps ih =>
    cases hperform : s.perform step with
    | none =>
      rw [trace_of_perform_eq_none hperform] at htrace
      cases htrace
    | some after =>
      obtain ⟨reply, log, u⟩ := after
      obtain ⟨rfl, rfl, hu⟩ := h.of_perform hperform
      rw [trace_of_perform hperform] at htrace
      obtain ⟨⟨rest, v⟩, hrest, heq⟩ := Option.map_eq_some_iff.1 htrace
      obtain ⟨rfl, rfl⟩ := Prod.mk.inj heq
      obtain ⟨rfl, hv⟩ := ih hu hrest
      rw [hu.position_eq]
      exact ⟨rfl, hv⟩

/-- Two scanners that follow one session show the same. -/
theorem Follows.trace_congr (hs : s.Follows x) (ht : t.Follows x) (steps : List Step) :
    (s.trace steps).map Prod.fst = (t.trace steps).map Prod.fst := by
  induction steps generalizing s t x with
  | nil => rfl
  | cons step steps ih =>
    cases hperform : s.perform step with
    | none =>
      rw [trace_of_perform_eq_none hperform,
        trace_of_perform_eq_none (hs.perform_eq_none ht hperform)]
    | some after =>
      obtain ⟨reply, log, s'⟩ := after
      obtain ⟨rfl, rfl, hs'⟩ := hs.of_perform hperform
      cases hperform' : t.perform step with
      | none =>
        rw [ht.perform_eq_none hs hperform'] at hperform
        cases hperform
      | some after' =>
        obtain ⟨reply', log', t'⟩ := after'
        obtain ⟨rfl, rfl, ht'⟩ := ht.of_perform hperform'
        have hrest := congrArg (Option.map (Outcome.mk (x.perform step).1 (x.perform step).2.1
          (x.perform step).2.2.position :: ·)) (ih hs' ht')
        rw [Option.map_map, Option.map_map] at hrest
        rw [trace_of_perform hperform, trace_of_perform hperform', hs'.position_eq,
          ht'.position_eq, Option.map_map, Option.map_map]
        exact hrest

/-! ### Whole sources -/

/-- A scanner gives for a source what reading it gives, if it can count over what it reads. -/
theorem exists_tokenize_eq (settings : Settings) (source : List Char) :
    ∃ run, tokenize settings source = Location.origin.checked run
      ((SqlScan.tokenize settings source).answer, (SqlScan.tokenize settings source).log) := by
  obtain ⟨run, t, -, -, -, hrun⟩ := (standsAt_ofSource settings source).run
  refine ⟨run, ?_⟩
  rw [tokenize, hrun]
  exact Location.checked_bind_some rfl

/-- A batch pass without a limit goes over all of a source. -/
theorem tokenize_batch (source : List Char) :
    tokenize .batch source = Location.origin.checked source
      ((SqlScan.tokenize .batch source).answer, (SqlScan.tokenize .batch source).log) := by
  obtain ⟨t, hrun⟩ := (standsAt_ofSource .batch source).run.of_ahead_eq_nil (Cursor.ahead_block_none _)
  rw [tokenize, hrun]
  exact Location.checked_bind_some rfl

end Scanner

end SqlScan
