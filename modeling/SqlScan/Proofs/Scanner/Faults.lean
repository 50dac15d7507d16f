import SqlScan.Proofs.Faults
import SqlScan.Proofs.Scanner.Restarts

/-!
# Faults describe the source

A scanner takes the places and the snippet of a fault in several ways: from the start of the token,
from a mark that it set at an inner quote, with and without a cut. All of them tell of the part of
the source that the fault covers, and the scanner stands behind that part afterwards.
-/

namespace SqlScan

theorem Item.ReadIn.exists_trueOf {source : List Char} {f : Fault}
    (h : Item.ReadIn source (.fault f)) : ∃ part behind, f.TrueOf source part behind := by
  obtain ⟨c, hc, rfl, hnext | hclosing⟩ := h
  · exact ⟨_, _, hc.trueOf_next hnext⟩
  · cases hclosing

theorem Session.Reachable.trueOf_next {settings : Settings} {source : List Char}
    {session after : Session} (h : Session.Reachable settings source session) {f : Fault}
    {log : List Event} (hnext : session.perform .next = (.item (.fault f), log, after)) :
    after.position = f.span.stop ∧ ∃ part behind, f.TrueOf source part behind := by
  obtain ⟨hconsistent, rfl⟩ := h.consistent
  have hitem := next_of_perform hnext
  have hafter : session.moveTo session.cursor.next.2 = after :=
    congrArg (fun result => result.2.2) hnext
  have hstop := Cursor.stop_next session.cursor
  rw [hitem, Item.span] at hstop
  refine ⟨?_, _, _, hconsistent.trueOf_next hitem⟩
  rw [← hafter, hstop]
  rfl

theorem Scanner.ReachedIn.trueOf_next {settings : Settings} {source : List Char} {s t : Scanner}
    (h : s.ReachedIn settings source) {f : Fault} (hnext : s.next = some (.fault f, t)) :
    t.position = f.span.stop ∧ ∃ part behind, f.TrueOf source part behind := by
  obtain ⟨x, hsx, -, rfl⟩ := h.exists_follows
  obtain ⟨u, hu, heq⟩ := hsx.stands.next.of_eq_some hnext
  obtain ⟨hitem, rfl⟩ := Prod.mk.inj heq
  have hstop := Cursor.stop_next x.cursor
  rw [← hitem, Item.span] at hstop
  refine ⟨?_, _, _, hsx.stands.consistent.trueOf_next hitem.symm⟩
  rw [hstop]
  exact congrArg Mark.offset hu.mark

/-- Wherever steps have led a session or a scanner, a fault that it reads next says of the source
what is true of it, and ends where reading goes on. So does every fault in what some steps of a
scanner answer, whether it was read alone or in a pass. -/
theorem faults_describe_source (settings : Settings) (source : List Char) :
    (∀ session, Session.Reachable settings source session → ∀ fault log after,
      session.perform .next = (.item (.fault fault), log, after) →
        after.position = fault.span.stop ∧ ∃ part behind, fault.TrueOf source part behind) ∧
    (∀ s : Scanner, s.ReachedIn settings source → ∀ fault t, s.next = some (.fault fault, t) →
      t.position = fault.span.stop ∧ ∃ part behind, fault.TrueOf source part behind) ∧
    ∀ steps outcomes s, (Scanner.ofSource settings source).trace steps = some (outcomes, s) →
      ∀ outcome ∈ outcomes, ∀ fault, .fault fault ∈ outcome.reply.items →
        ∃ part behind, fault.TrueOf source part behind := by
  refine ⟨?_, ?_, ?_⟩
  · intro session hsession fault log after hnext
    exact hsession.trueOf_next hnext
  · intro s hs fault t hnext
    exact hs.trueOf_next hnext
  · intro steps outcomes s htrace outcome houtcome fault hfault
    obtain ⟨rfl, -⟩ := (Scanner.follows_ofSource settings source).of_trace htrace
    have hstart : (Session.ofSource settings source).cursor.Consistent :=
      Cursor.consistent_ofSource source
    exact (Session.readIn_trace hstart steps outcome houtcome _ hfault).exists_trueOf

/-- A name that breaks off at a quote, with more behind it than a snippet shows. -/
theorem faults_describe_source_cut :
    let source := "é.\"/* ß '' takes what is left of the source\n\"\"".toList
    let fault : Fault :=
      ⟨.unterminatedString, "\"/* ß '' takes what is left of the sourc...", ⟨3, 48⟩, ⟨1, 3⟩⟩
    (∃ log after,
      (Session.ofSource .batch source).perform .next = (.item (.fault fault), log, after) ∧
        after.position = 48 ∧ ∃ part behind, fault.TrueOf source part behind) ∧
    ∃ t, (Scanner.ofSource .batch source).next = some (.fault fault, t) ∧
      t.position = 48 ∧ ∃ part behind, fault.TrueOf source part behind := by
  intro source fault
  have hcounts : Location.origin.counts source := by decide
  have hitem : (Cursor.ofSource source).next.1 = .fault fault := by decide +kernel
  obtain ⟨hsession, hscanner, -⟩ := faults_describe_source .batch source
  constructor
  · have hnext := Session.perform_next (s := Session.ofSource .batch source) hitem
    exact ⟨_, _, hnext, hsession _ .start fault _ _ hnext⟩
  · have hgoes := (Scanner.standsAt_ofSource .batch source).next
    obtain ⟨⟨item, t⟩, hnext⟩ := Option.isSome_iff_exists.1 (hgoes.isSome hcounts)
    obtain ⟨u, -, heq⟩ := hgoes.of_eq_some hnext
    obtain ⟨rfl, rfl⟩ := Prod.mk.inj heq
    rw [hitem] at hnext
    exact ⟨t, hnext, hscanner _ ⟨[], [], rfl⟩ fault t hnext⟩

end SqlScan
