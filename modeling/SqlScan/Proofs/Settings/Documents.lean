import SqlScan.Proofs.Settings.Texts
import SqlScan.Proofs.WrittenNumbers
import SqlScan.Settings.Document

/-!
# What documents give

A document gives each setting apart, by its name in a mapping or by its place in a sequence, and the
order of the names does not count: the settings that are read from it have for each what the document
gives for it, or the default if it gives nothing (`ofDocument_eq_ok_iff`). A limit is given by a
positive integer and by nothing else.
-/

namespace SqlScan

namespace Document

/-- No name of a mapping is there twice. -/
def Distinct : Document → Prop
  | .mapping fields => (fields.map Prod.fst).Nodup
  | _ => True

/-- What the document gives for a setting. -/
def entry? (name : String) (place : Nat) : Document → Option Document
  | .mapping fields => fields.lookup name
  | .sequence items => items[place]?
  | _ => none

/-- The document is made of settings alone. -/
def OnlySettings : Document → Prop
  | .mapping fields => ∀ field ∈ fields, field.1 = "mode" ∨ field.1 = "max-errors"
  | .sequence items => items.length ≤ 2
  | _ => False

/-- The document gives these settings, the default for those that it leaves out. -/
structure Gives (d : Document) (s : Settings) : Prop where
  only : d.OnlySettings
  mode : (d.entry? "mode" 0).elim (.ok .failFast) Mode.ofDocument = .ok s.mode
  limit : (d.entry? "max-errors" 1).elim (.ok none) FaultLimit.ofDocument = .ok s.limit

end Document

/-! ### Single settings -/

namespace FaultLimit

variable {d : Document} {limit : FaultLimit}

theorem ofDocument_eq_ok_some_iff :
    ofDocument d = .ok (some limit) ↔ d = .integer limit.count := by
  cases d with
  | integer n =>
    have hcount : ofNat? n.toNat = some limit ↔ n = limit.count := by
      have hpos := limit.count_pos
      rw [ofNat?_eq_some_iff]
      omega
    rw [Document.integer.injEq, ← hcount, ofDocument]
    cases ofNat? n.toNat <;> simp
  | _ => simp [ofDocument]

theorem ofDocument_integer_of_pos {n : Nat} (h : 0 < n) :
    ofDocument (.integer n) = .ok (some ⟨n, h⟩) :=
  ofDocument_eq_ok_some_iff.2 rfl

theorem ofDocument_integer_of_not_pos {n : Int} (h : n ≤ 0) :
    ofDocument (.integer n) = .error (.limitNotPositive n) := by
  have hnone : ofNat? n.toNat = none := ofNat?_eq_none_iff.2 (Int.toNat_of_nonpos h)
  rw [ofDocument, hnone]

end FaultLimit

/-! ### Whole numbers -/

theorem Numeral.read_toString (n : Nat) : read (toString n).toList = (ofNat n, []) := by
  have htext : (toString n).toList = (ofNat n).text := by
    rw [text_ofNat]
    exact Nat.toList_repr
  rw [htext]
  exact (leads_iff.1 (leads_ofNat n)).1

/-- A number of 64 bits without a sign is an integer of a document. -/
theorem Document.ofNumeral?_toString {n : Nat} (h : n < 2 ^ 64) :
    ofNumeral? false (Numeral.read (toString n).toList).1 = some (.integer n) := by
  rw [Numeral.read_toString, ofNumeral?, Numeral.ofNat, Decimal.natOfDigits_toDigits]
  exact if_pos ⟨rfl, rfl, h⟩

/-! ### Settings in turn -/

namespace Settings

variable {s t : Settings}

theorem withField_eq_ok_iff {name : String} {value : Document} :
    s.withField name value = .ok t ↔
      (name = "mode" ∧ Mode.ofDocument value = .ok t.mode ∧ t.limit = s.limit) ∨
      (name = "max-errors" ∧ FaultLimit.ofDocument value = .ok t.limit ∧ t.mode = s.mode) := by
  obtain ⟨mode, limit⟩ := t
  unfold withField
  split
  · rename_i hname
    subst hname
    cases Mode.ofDocument value <;> simp [Except.map, eq_comm]
  · split
    · rename_i hname
      subst hname
      cases FaultLimit.ofDocument value <;> simp [Except.map, eq_comm, and_comm]
    · simp_all

theorem lookup_eq_none_of_not_mem {fields : List (String × Document)} {name : String}
    (h : name ∉ fields.map Prod.fst) : fields.lookup name = none := by
  rw [List.lookup_eq_none_iff]
  intro field hfield
  rw [bne_iff_ne]
  rintro rfl
  exact h (List.mem_map_of_mem hfield)

/-- Named settings that are read in turn onto others replace those that they name. -/
theorem foldlM_withField_eq_ok_iff {fields : List (String × Document)}
    (hdistinct : (fields.map Prod.fst).Nodup) :
    fields.foldlM (fun s field => s.withField field.1 field.2) s = .ok t ↔
      (∀ field ∈ fields, field.1 = "mode" ∨ field.1 = "max-errors") ∧
      (fields.lookup "mode").elim (.ok s.mode) Mode.ofDocument = .ok t.mode ∧
      (fields.lookup "max-errors").elim (.ok s.limit) FaultLimit.ofDocument = .ok t.limit := by
  induction fields generalizing s with
  | nil =>
    obtain ⟨mode, limit⟩ := t
    obtain ⟨mode', limit'⟩ := s
    simp [pure, Except.pure]
  | cons field fields ih =>
    obtain ⟨name, value⟩ := field
    rw [List.map_cons, List.nodup_cons] at hdistinct
    obtain ⟨hname, hrest⟩ := hdistinct
    have habsent := lookup_eq_none_of_not_mem hname
    have hbind : ((name, value) :: fields).foldlM (fun s field => s.withField field.1 field.2) s
        = .ok t ↔ ∃ u, s.withField name value = .ok u ∧
          fields.foldlM (fun s field => s.withField field.1 field.2) u = .ok t := by
      rw [List.foldlM_cons]
      cases s.withField name value <;> simp [bind, Except.bind]
    rw [hbind, List.forall_mem_cons, List.lookup_cons, List.lookup_cons]
    simp only [withField_eq_ok_iff, ih hrest]
    constructor
    · rintro ⟨u, ⟨rfl, hmode, hlimit⟩ | ⟨rfl, hlimit, hmode⟩, honly, hmode', hlimit'⟩
      · rw [habsent] at hmode'
        obtain hsame := Except.ok.inj hmode'
        rw [hlimit] at hlimit'
        exact ⟨⟨.inl rfl, honly⟩, hsame ▸ hmode, hlimit'⟩
      · rw [habsent] at hlimit'
        obtain hsame := Except.ok.inj hlimit'
        rw [hmode] at hmode'
        exact ⟨⟨.inr rfl, honly⟩, hmode', hsame ▸ hlimit⟩
    · rintro ⟨⟨rfl | rfl, honly⟩, hmode, hlimit⟩
      · refine ⟨⟨t.mode, s.limit⟩, .inl ⟨rfl, hmode, rfl⟩, honly, ?_, hlimit⟩
        rw [habsent]
        rfl
      · refine ⟨⟨s.mode, t.limit⟩, .inr ⟨rfl, hlimit, rfl⟩, honly, hmode, ?_⟩
        rw [habsent]
        rfl

/-- The items of a sequence are the settings in their order, and there are no more than those. -/
theorem ofDocument_sequence_eq_ok_iff (items : List Document) :
    ofDocument (.sequence items) = .ok s ↔
      items.length ≤ 2 ∧ ofDocument (.mapping (["mode", "max-errors"].zip items)) = .ok s := by
  have hlength : (["mode", "max-errors"].zip items).length < items.length ↔ ¬ items.length ≤ 2 := by
    simp [List.length_zip]
  simp only [ofDocument, hlength]
  cases (["mode", "max-errors"].zip items).foldlM
    (fun s field => s.withField field.1 field.2) default with
  | error fault => simp [bind, Except.bind]
  | ok settings =>
    show (if _ then _ else _) = _ ↔ _
    split <;> simp_all

theorem ofDocument_eq_ok_iff {d : Document} (hd : d.Distinct) :
    ofDocument d = .ok s ↔ d.Gives s := by
  have hgives : d.Gives s ↔ d.OnlySettings ∧
      (d.entry? "mode" 0).elim (.ok .failFast) Mode.ofDocument = .ok s.mode ∧
      (d.entry? "max-errors" 1).elim (.ok none) FaultLimit.ofDocument = .ok s.limit :=
    ⟨fun h => ⟨h.only, h.mode, h.limit⟩, fun h => ⟨h.1, h.2.1, h.2.2⟩⟩
  rw [hgives]
  cases d with
  | mapping fields => exact foldlM_withField_eq_ok_iff hd
  | sequence items =>
    rw [ofDocument_sequence_eq_ok_iff]
    refine and_congr_right fun hlength => ?_
    match items, hlength with
    | [], _ =>
      refine (foldlM_withField_eq_ok_iff (by simp)).trans ?_
      simp [Document.entry?, default, failFast]
    | [mode], _ =>
      refine (foldlM_withField_eq_ok_iff (by simp)).trans ?_
      simp [Document.entry?, default, failFast, List.lookup_cons]
    | [mode, limit], _ =>
      refine (foldlM_withField_eq_ok_iff (by simp)).trans ?_
      simp [Document.entry?, List.lookup_cons]
  | _ => simp [ofDocument, Document.OnlySettings]

end Settings

end SqlScan
