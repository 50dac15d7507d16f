import SqlScan.Proofs.Settings.Documents
import SqlScan.Settings.Variables

/-!
# Settings from variables

Each of the two variables decides one setting and one part of the warnings, and nothing that the other
says comes into it. A limit means the same however it is given: as the text of a variable, as an
integer of a document, or as a number, and none of the three makes a limit of zero.
-/

namespace SqlScan

open Settings (ofVariables)

/-! ### What variables say -/

/-- The log warns once of a variable that is set to what is not recognised, and else it is empty. -/
inductive Warned (recognised : String → Prop) (warning : String → Event → Prop) :
    Option String → List Event → Prop where
  | unset : Warned recognised warning none []
  | recognised {value : String} (h : recognised value) :
      Warned recognised warning (some value) []
  | unrecognised {value : String} {event : Event} (h : ¬ recognised value)
      (hevent : warning value event) : Warned recognised warning (some value) [event]

/-- What is read of a variable warns of it if what is read of each value does. -/
theorem Warned.of_map {recognised : String → Prop} {warning : String → Event → Prop} {α : Type}
    {read : String → α × List Event} (h : ∀ value, Warned recognised warning (some value) (read value).2)
    (value : Option String) (start : α) :
    Warned recognised warning value ((value.map read).getD (start, [])).2 := by
  cases value with
  | none => exact .unset
  | some value => exact h value

/-- The value says a limit that fits 64 bits and is not zero, blanks around it apart. -/
def FaultLimit.SaidBy (value : String) (n : Nat) : Prop :=
  ∃ core, Text.Trims value.toList core ∧ Says core n ∧ 1 ≤ n ∧ n < 2 ^ 64

/-- The settings and the warnings are those of the variables. -/
structure Settings.ReadFrom (lookup : String → Option String) (s : Settings) (log : List Event) :
    Prop where
  mode : s.mode = .batch ↔ ∃ value core, lookup "OPTI_SQL_LEX_MODE" = some value ∧
    Text.Trims value.toList core ∧ Text.lower core = "batch".toList
  limit : ∀ n, s.limit.map FaultLimit.count = some n ↔
    ∃ value, lookup "OPTI_SQL_MAX_ERRORS" = some value ∧ FaultLimit.SaidBy value n
  warnings : ∃ ofMode ofLimit, log = ofMode ++ ofLimit ∧
    Warned (fun value => ∃ mode : Mode, mode.NamedBy value.toList)
      (fun value event => event = .unknownMode "OPTI_SQL_LEX_MODE" value)
      (lookup "OPTI_SQL_LEX_MODE") ofMode ∧
    Warned (fun value => ∃ n, FaultLimit.SaidBy value n)
      (fun value event => ∃ core fault, Text.Trims value.toList core ∧
        LimitFault.Explains fault core ∧
        event = .invalidLimit "OPTI_SQL_MAX_ERRORS" value fault)
      (lookup "OPTI_SQL_MAX_ERRORS") ofLimit

theorem FaultLimit.saidBy_iff {value : String} {n : Nat} :
    SaidBy value n ↔ ∃ limit, ofText value.toList = .ok limit ∧ limit.count = n := by
  constructor
  · rintro ⟨core, htrims, hsays, hpos, hfits⟩
    exact ⟨⟨n, hpos⟩, ofText_eq_ok_iff.2 ⟨core, htrims, hsays, hfits⟩, rfl⟩
  · rintro ⟨limit, htext, rfl⟩
    obtain ⟨core, htrims, hsays, hfits⟩ := ofText_eq_ok_iff.1 htext
    exact ⟨core, htrims, hsays, limit.count_pos, hfits⟩

namespace Settings

theorem mode_ofVariables (lookup : String → Option String) : (ofVariables lookup).1.mode =
    ((lookup "OPTI_SQL_LEX_MODE").bind fun value => Mode.ofText? value.toList).getD .failFast := by
  show (((lookup "OPTI_SQL_LEX_MODE").map modeOfValue).getD (default.mode, [])).1 = _
  cases lookup "OPTI_SQL_LEX_MODE" with
  | none => rfl
  | some value =>
    rw [Option.map_some, Option.getD_some, Option.bind_some, modeOfValue]
    cases Mode.ofText? value.toList <;> rfl

theorem limit_ofVariables (lookup : String → Option String) : (ofVariables lookup).1.limit =
    (lookup "OPTI_SQL_MAX_ERRORS").bind fun value => (FaultLimit.ofText value.toList).toOption := by
  show (((lookup "OPTI_SQL_MAX_ERRORS").map limitOfValue).getD (default.limit, [])).1 = _
  cases lookup "OPTI_SQL_MAX_ERRORS" with
  | none => rfl
  | some value =>
    rw [Option.map_some, Option.getD_some, Option.bind_some, limitOfValue]
    cases FaultLimit.ofText value.toList <;> rfl

theorem warned_modeOfValue (value : String) :
    Warned (fun value => ∃ mode : Mode, mode.NamedBy value.toList)
      (fun value event => event = .unknownMode "OPTI_SQL_LEX_MODE" value)
      (some value) (modeOfValue value).2 := by
  unfold modeOfValue
  split
  · rename_i mode hmode
    exact .recognised ⟨mode, Mode.ofText?_eq_some_iff.1 hmode⟩
  · rename_i hnone
    refine .unrecognised ?_ rfl
    rintro ⟨mode, hmode⟩
    rw [Mode.ofText?_eq_some_iff.2 hmode] at hnone
    cases hnone

theorem warned_limitOfValue (value : String) :
    Warned (fun value => ∃ n, FaultLimit.SaidBy value n)
      (fun value event => ∃ core fault, Text.Trims value.toList core ∧
        LimitFault.Explains fault core ∧ event = .invalidLimit "OPTI_SQL_MAX_ERRORS" value fault)
      (some value) (limitOfValue value).2 := by
  unfold limitOfValue
  split
  · rename_i limit hlimit
    exact .recognised ⟨limit.count, FaultLimit.saidBy_iff.2 ⟨limit, hlimit, rfl⟩⟩
  · rename_i fault hfault
    obtain ⟨core, htrims, hexplains⟩ := FaultLimit.ofText_eq_error_iff.1 hfault
    refine .unrecognised ?_ ⟨core, fault, htrims, hexplains, rfl⟩
    rintro ⟨n, hn⟩
    obtain ⟨limit, hlimit, -⟩ := FaultLimit.saidBy_iff.1 hn
    rw [hlimit] at hfault
    cases hfault

theorem readFrom_ofVariables (lookup : String → Option String) :
    ReadFrom lookup (ofVariables lookup).1 (ofVariables lookup).2 where
  mode := by
    rw [mode_ofVariables]
    cases lookup "OPTI_SQL_LEX_MODE" with
    | none => simp
    | some value =>
      have hbatch : Mode.ofText? value.toList = some .batch ↔
          ∃ core, Text.Trims value.toList core ∧ Text.lower core = "batch".toList := by
        rw [Mode.ofText?_eq_some_iff, Mode.NamedBy]
        simp only [Mode.names, List.mem_singleton, exists_eq_left]
      have hgetD : (Mode.ofText? value.toList).getD .failFast = .batch ↔
          Mode.ofText? value.toList = some .batch := by
        cases Mode.ofText? value.toList <;> simp
      simp [hgetD, hbatch]
  limit n := by
    rw [limit_ofVariables]
    cases lookup "OPTI_SQL_MAX_ERRORS" with
    | none => simp
    | some value =>
      simp only [Option.bind_some, Option.some_inj, exists_eq_left', FaultLimit.saidBy_iff]
      cases FaultLimit.ofText value.toList <;> simp [Except.toOption]
  warnings := by
    refine ⟨_, _, rfl, ?_, ?_⟩
    · exact Warned.of_map warned_modeOfValue _ _
    · exact Warned.of_map warned_limitOfValue _ _

end Settings

/-! ### Limits -/

/-- Every way to give the number as a limit gives this limit. -/
structure FaultLimit.GivenBy (n : Nat) (limit : FaultLimit) : Prop where
  count : limit.count = n
  text : ∀ lookup, lookup "OPTI_SQL_MAX_ERRORS" = some (toString n) →
    (ofVariables lookup).1.limit = some limit
  number : ∀ s : Settings, s.withLimit n = { s with limit := some limit }
  written : Document.ofNumeral? false (Numeral.read (toString n).toList).1 = some (.integer n)
  document : ∀ d : Document, d.Distinct → d.entry? "max-errors" 1 = some (.integer n) → ∀ s,
    Settings.ofDocument d = .ok s ↔ d.OnlySettings ∧
      (d.entry? "mode" 0).elim (.ok .failFast) Mode.ofDocument = .ok s.mode ∧ s.limit = some limit

/-- No way to give a limit makes one of zero: a text that says zero is reported, the number takes the
limit away, and a document is refused. -/
structure FaultLimit.ZeroRefused : Prop where
  text : ∀ lookup value core, lookup "OPTI_SQL_MAX_ERRORS" = some value →
    Text.Trims value.toList core → Says core 0 →
      (ofVariables lookup).1.limit = none ∧
      .invalidLimit "OPTI_SQL_MAX_ERRORS" value .zero ∈ (ofVariables lookup).2
  number : ∀ s : Settings, s.withLimit 0 = { s with limit := none }
  document : ∀ d : Document, d.Distinct → d.entry? "max-errors" 1 = some (.integer 0) → ∀ s,
    Settings.ofDocument d ≠ .ok s

namespace FaultLimit

theorem saidBy_toString {n : Nat} (hpos : 1 ≤ n) (hfits : n < 2 ^ 64) : SaidBy (toString n) n := by
  have htext : (toString n).toList = Nat.toDigits 10 n := Nat.toList_repr
  have hdigits := Decimal.isDigit_of_mem_toDigits (n := n)
  have hblank : ∀ c ∈ Nat.toDigits 10 n, Text.isBlank c = false := by
    intro c hc
    rw [Bool.eq_false_iff]
    intro hblank
    have hnot := Text.isDigit_of_isBlank hblank
    rw [hdigits c hc] at hnot
    cases hnot
  refine ⟨Nat.toDigits 10 n, ?_, ?_, hpos, hfits⟩
  · rw [htext]
    refine ⟨⟨[], [], by simp, by simp, by simp⟩, ?_, ?_⟩
    · exact fun c hc => hblank c (List.mem_of_mem_head? hc)
    · exact fun c hc => hblank c (List.mem_of_mem_getLast? hc)
  · exact ⟨[], _, rfl, .inl rfl, Nat.toDigits_ne_nil, hdigits, Decimal.natOfDigits_toDigits n⟩

theorem givenBy {n : Nat} (hpos : 1 ≤ n) (hfits : n < 2 ^ 64) : GivenBy n ⟨n, hpos⟩ where
  count := rfl
  text lookup hlookup := by
    obtain ⟨limit, hlimit, rfl⟩ := saidBy_iff.1 (saidBy_toString hpos hfits)
    rw [Settings.limit_ofVariables, hlookup, Option.bind_some, hlimit]
    rfl
  number s := by
    have hlimit : ofNat? n = some ⟨n, hpos⟩ := ofNat?_eq_some_iff.2 rfl
    rw [Settings.withLimit, hlimit]
  written := Document.ofNumeral?_toString hfits
  document d hd hentry s := by
    have hlimit := ofDocument_integer_of_pos hpos
    rw [Settings.ofDocument_eq_ok_iff hd]
    constructor
    · intro h
      have hgiven := h.limit
      rw [hentry, Option.elim_some, hlimit] at hgiven
      exact ⟨h.only, h.mode, (Except.ok.inj hgiven).symm⟩
    · rintro ⟨honly, hmode, hsame⟩
      refine ⟨honly, hmode, ?_⟩
      rw [hentry, Option.elim_some, hlimit, hsame]

theorem zeroRefused : ZeroRefused where
  text lookup value core hlookup htrims hzero := by
    have hfault := ofText_eq_error_iff.2 ⟨core, htrims, .zero hzero⟩
    constructor
    · rw [Settings.limit_ofVariables, hlookup, Option.bind_some, hfault]
      rfl
    · have hvalue : Settings.limitOfValue value
          = (none, [.invalidLimit "OPTI_SQL_MAX_ERRORS" value .zero]) := by
        rw [Settings.limitOfValue, hfault]
        rfl
      show _ ∈ _ ++ (((lookup "OPTI_SQL_MAX_ERRORS").map Settings.limitOfValue).getD (none, [])).2
      rw [hlookup, Option.map_some, Option.getD_some, hvalue]
      simp
  number s := rfl
  document d hd hentry s hs := by
    have hlimit := ((Settings.ofDocument_eq_ok_iff hd).1 hs).limit
    rw [hentry, Option.elim_some, ofDocument_integer_of_not_pos le_rfl] at hlimit
    cases hlimit

end FaultLimit

/-- What a document gives for the limit is the limit, and that is a positive integer or none. -/
theorem Settings.limit_of_ofDocument {d : Document} {s : Settings} (hd : d.Distinct)
    (h : ofDocument d = .ok s) (n : Nat) :
    s.limit.map FaultLimit.count = some n ↔
      1 ≤ n ∧ d.entry? "max-errors" 1 = some (.integer n) := by
  have hlimit := ((ofDocument_eq_ok_iff hd).1 h).limit
  constructor
  · intro hcount
    obtain ⟨limit, hsome, rfl⟩ := Option.map_eq_some_iff.1 hcount
    refine ⟨limit.count_pos, ?_⟩
    rw [hsome] at hlimit
    cases hentry : d.entry? "max-errors" 1 with
    | none =>
      rw [hentry] at hlimit
      cases hlimit
    | some value =>
      rw [hentry, Option.elim_some, FaultLimit.ofDocument_eq_ok_some_iff] at hlimit
      rw [hlimit]
  · rintro ⟨hpos, hentry⟩
    rw [hentry, Option.elim_some, FaultLimit.ofDocument_integer_of_pos hpos] at hlimit
    rw [← Except.ok.inj hlimit]
    rfl

/-- Both values are reported, the mode's first. -/
example : ofVariables (fun _ => some " +00 ") = (.default,
    [.unknownMode "OPTI_SQL_LEX_MODE" " +00 ",
      .invalidLimit "OPTI_SQL_MAX_ERRORS" " +00 " .zero]) := by
  decide +kernel

end SqlScan
