import SqlScan.Proofs.Places
import SqlScan.Proofs.Scanner.Sessions
import SqlScan.Proofs.Utf8

/-!
# Sources given as bytes

Bytes that encode a text are read as that text. Any other bytes fall apart in the longest text that
they begin with, the bytes behind it that cannot be read, and what follows, which has no part in the
answer. The answer tells of the bytes that cannot be read and of nothing else, whatever the settings.
A scanner gives it if it can count over the text before them, and otherwise it breaks down.
-/

namespace SqlScan

open Text.Utf8 (encode Rejected)

variable {s : Settings} {bytes : List UInt8}

/-- The digits from zero to fifteen. -/
def hexDigits : List Char :=
  ['0', '1', '2', '3', '4', '5', '6', '7', '8', '9', 'A', 'B', 'C', 'D', 'E', 'F']

theorem byteSnippet_eq (b : UInt8) :
    byteSnippet b
      = ['\\', 'x', hexDigits.getD (b.toNat / 16) '?', hexDigits.getD (b.toNat % 16) '?'] := by
  have hdigit : ∀ n < 16, (Nat.digitChar n).toUpper = hexDigits.getD n '?' := by decide
  have hsize := b.toNat_lt
  unfold byteSnippet
  dsimp only
  rw [hdigit _ (by omega), hdigit _ (by omega)]

/-- Bytes that are no text, taken apart: the longest text that they begin with, what cannot be read
behind it, and what follows. -/
structure FallsApart (bytes : List UInt8) (before : List Char) (bad after : List UInt8) : Prop where
  append : bytes = encode before ++ (bad ++ after)
  longest : ∀ text, encode text <+: bytes → (encode text).length ≤ (encode before).length
  rejected : Rejected bad after

/-- The fault tells of some bytes behind a text that cannot be read: where they are, and which they
are. -/
structure Fault.TellsOf (before : List Char) (bad : List UInt8) (f : Fault) : Prop where
  cause : f.cause = .invalidEncoding
  span : f.span = ⟨(encode before).length, (encode before).length + bad.length⟩
  snippet : f.snippet = String.ofList (bad.flatMap fun b =>
    ['\\', 'x', hexDigits.getD (b.toNat / 16) '?', hexDigits.getD (b.toNat % 16) '?'])
  location : f.location = ⟨1 + before.count '\n', 1 + (before.rtakeWhile (· != '\n')).length⟩

/-- The fault is all that is answered and logged; a stream of a batch pass has nothing else but the
end. -/
structure Fault.Refuses (s : Settings) (f : Fault)
    (answer : Except Fault TokenStream × List Event) : Prop where
  failFast : s.mode = .failFast → answer.1 = .error f
  batch : s.mode = .batch → answer.1 = .ok ⟨[⟨"", .endOfFile, ⟨0, 0⟩, ⟨1, 1⟩⟩], [f]⟩
  log : answer.2 = [.rejected f]

/-! ### Reading bytes -/

theorem refuses_rejection (s : Settings) (f : Fault) : f.Refuses s (rejection s f) where
  failFast hmode := by
    rw [rejection, hmode]
  batch hmode := by
    rw [rejection, hmode]
    rfl
  log := rfl

theorem tokenizeBytes_of_decode_eq_error {i : Text.Utf8.IllFormed}
    (h : Text.Utf8.decode bytes = .error i) : tokenizeBytes s bytes = rejection s (.ofIllFormed i) := by
  rw [tokenizeBytes, h]

theorem Fault.tellsOf_ofIllFormed (before : List Char) (bad : List UInt8) :
    (Fault.ofIllFormed ⟨before, bad⟩).TellsOf before bad where
  cause := rfl
  span := by
    rw [Text.Utf8.length_encode, ← Mark.origin_after_offset]
    rfl
  snippet := by
    rw [← funext byteSnippet_eq]
    rfl
  location := by
    show (Mark.origin.after before).location = _
    rw [Mark.location_after, ← Location.column_origin_after]
    exact congrArg (Location.mk · _) (Location.line_after .origin before)

/-! ### Scanning bytes -/

namespace Scanner

theorem faultOfIllFormed_eq (i : Text.Utf8.IllFormed) :
    faultOfIllFormed i = Location.origin.checked i.before (.ofIllFormed i) := by
  have hcount := Location.ofOffset?_append i.before []
  rw [List.append_nil] at hcount
  rw [faultOfIllFormed, hcount]
  apply Location.checked_bind_some
  rw [Fault.ofIllFormed, Mark.origin_after_offset, Mark.location_after]
  rfl

theorem tokenizeBytes_of_decode_eq_error {i : Text.Utf8.IllFormed}
    (h : Text.Utf8.decode bytes = .error i) :
    tokenizeBytes s bytes = Location.origin.checked i.before (SqlScan.tokenizeBytes s bytes) := by
  rw [tokenizeBytes, h, SqlScan.tokenizeBytes_of_decode_eq_error h]
  show (faultOfIllFormed i).map (rejection s) = _
  rw [faultOfIllFormed_eq, Location.map_checked]

/-- Where a scanner does not break down it gives for bytes what reading them gives. -/
theorem tokenizeBytes_eq_some {answer : Except Fault TokenStream × List Event}
    (h : tokenizeBytes s bytes = some answer) : SqlScan.tokenizeBytes s bytes = answer := by
  have hchecked : ∃ run,
      tokenizeBytes s bytes = Location.origin.checked run (SqlScan.tokenizeBytes s bytes) := by
    cases hdecode : Text.Utf8.decode bytes with
    | error i => exact ⟨i.before, tokenizeBytes_of_decode_eq_error hdecode⟩
    | ok source =>
      rw [tokenizeBytes, SqlScan.tokenizeBytes, hdecode]
      exact exists_tokenize_eq s source
  obtain ⟨run, hrun⟩ := hchecked
  rw [h] at hrun
  exact (Location.checked_eq_some_iff.1 hrun.symm).2

end Scanner

/-! ### Bytes that fall apart -/

namespace FallsApart

variable {bad after : List UInt8} {before : List Char}

theorem of_rejected (h : Rejected bad after) :
    FallsApart (encode before ++ (bad ++ after)) before bad after where
  append := rfl
  longest text htext := by
    obtain ⟨more, rfl⟩ :=
      Text.Utf8.prefix_of_decode_eq_error (h.decode_encode_append before) htext
    rw [Text.Utf8.encode_append, List.length_append]
    exact Nat.le_add_right _ _
  rejected := h

theorem decode_eq (h : FallsApart bytes before bad after) :
    Text.Utf8.decode bytes = .error ⟨before, bad⟩ := by
  rw [h.append]
  exact h.rejected.decode_encode_append before

theorem tokenizeBytes_eq (h : FallsApart bytes before bad after) (s : Settings) :
    tokenizeBytes s bytes = rejection s (.ofIllFormed ⟨before, bad⟩) :=
  tokenizeBytes_of_decode_eq_error h.decode_eq

theorem scan_eq (h : FallsApart bytes before bad after) (s : Settings) :
    Scanner.tokenizeBytes s bytes
      = Location.origin.checked before (rejection s (.ofIllFormed ⟨before, bad⟩)) := by
  rw [Scanner.tokenizeBytes_of_decode_eq_error h.decode_eq, h.tokenizeBytes_eq]

/-- What follows the bytes that cannot be read has no part in how the others fall apart. -/
theorem take (h : FallsApart bytes before bad after) :
    FallsApart (bytes.take ((encode before).length + bad.length)) before bad [] := by
  have hcut : bytes.take ((encode before).length + bad.length) = encode before ++ (bad ++ []) := by
    rw [h.append, List.append_nil, ← List.append_assoc, ← List.length_append, List.take_left]
  rw [hcut]
  exact of_rejected h.rejected.cut

end FallsApart

/-- Bytes that encode a text are scanned as that text, and any others are refused as a whole if the
text that they begin with can be counted: for the bytes behind the longest such text, one to three of
them, told as they are and where they are. The rest of the source has no part in this. Reading answers
what scanning does, with no limit to counting. -/
theorem tokenizeBytes_exact (s : Settings) :
    (∀ source, Scanner.tokenizeBytes s (encode source) = Scanner.tokenize s source) ∧
    (∀ bytes, (∀ source, bytes ≠ encode source) →
      ∃ before bad after,
        FallsApart bytes before bad after ∧
        1 ≤ bad.length ∧ bad.length ≤ 3 ∧
        ((Scanner.tokenizeBytes s bytes).isSome ↔ Location.origin.counts before) ∧
        ∀ answer, Scanner.tokenizeBytes s bytes = some answer → ∃ fault : Fault,
          fault.TellsOf before bad ∧ fault.Refuses s answer ∧
          Scanner.tokenizeBytes s (bytes.take fault.span.stop) = some answer) ∧
    ∀ bytes answer, Scanner.tokenizeBytes s bytes = some answer → tokenizeBytes s bytes = answer := by
  refine ⟨?_, ?_, fun bytes answer => Scanner.tokenizeBytes_eq_some⟩
  · intro source
    rw [Scanner.tokenizeBytes, Text.Utf8.decode_encode]
  · intro bytes hbytes
    obtain ⟨source, hsource⟩ | ⟨before, bad, after, rfl, hrejected⟩ := Text.Utf8.exists_split bytes
    · exact absurd hsource (hbytes source)
    · have hparts : FallsApart _ before bad after := .of_rejected hrejected
      have htells := Fault.tellsOf_ofIllFormed before bad
      refine ⟨before, bad, after, hparts, hrejected.length_pos,
        Nat.le_of_lt_succ hrejected.length_lt, ?_, ?_⟩
      · rw [hparts.scan_eq, Location.checked, Option.isSome_ite]
      · intro answer hanswer
        refine ⟨_, htells, ?_, ?_⟩
        · rw [← Scanner.tokenizeBytes_eq_some hanswer, hparts.tokenizeBytes_eq]
          exact refuses_rejection s _
        · rw [htells.span, hparts.take.scan_eq, ← hparts.scan_eq]
          exact hanswer

/-- A character of three bytes without its last, on a line of its own behind a character of two. -/
theorem tokenizeBytes_exact_cut :
    let bytes : List UInt8 := [0x61, 0x0A, 0xC3, 0xA9, 0xE2, 0x82, 0x28]
    (∀ source, bytes ≠ encode source) ∧
    ∃ (fault : Fault) (answer : Except Fault TokenStream × List Event),
      Scanner.tokenizeBytes .batch bytes = some answer ∧ fault.Refuses .batch answer ∧
      fault.span = ⟨4, 6⟩ ∧ fault.location = ⟨2, 2⟩ ∧
      Scanner.tokenizeBytes .batch (bytes.take 6) = some answer := by
  intro bytes
  have hdecode : Text.Utf8.decode bytes = .error ⟨['a', '\n', 'é'], [0xE2, 0x82]⟩ := by
    decide +kernel
  have hbytes : ∀ source, bytes ≠ encode source := by
    rintro source hsource
    rw [hsource, Text.Utf8.decode_encode] at hdecode
    cases hdecode
  obtain ⟨-, hrefused, -⟩ := tokenizeBytes_exact .batch
  obtain ⟨before, bad, after, hparts, -, -, hscanned, hanswers⟩ := hrefused bytes hbytes
  obtain ⟨rfl, rfl⟩ : before = ['a', '\n', 'é'] ∧ bad = [0xE2, 0x82] := by
    have heq := hparts.decode_eq.symm.trans hdecode
    cases heq
    exact ⟨rfl, rfl⟩
  obtain ⟨answer, hanswer⟩ := Option.isSome_iff_exists.1 (hscanned.2 (by decide))
  obtain ⟨fault, htells, hrefuses, hcut⟩ := hanswers answer hanswer
  have hspan : fault.span = ⟨4, 6⟩ := htells.span
  rw [hspan] at hcut
  exact ⟨hbytes, fault, answer, hanswer, hrefuses, hspan, htells.location, hcut⟩

end SqlScan
