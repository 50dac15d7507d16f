import Mathlib.Data.List.Basic
import SqlScan.Text.Offset
import SqlScan.Text.Utf8

/-!
# Encoded texts

The bytes of a text are those of its characters, one after another. Reading them back gives the text.
Where bytes are not those of any text, reading stops behind the characters that can be read and
splits off the longest front of the rest that begins a character, or a single byte if none does.

One character is decided by a pattern: its first byte, then as many bytes as that one owes, each in
its range (`utf8EncodeChar_eq_iff`). Everything else is read off this pattern, so only the four forms
of an encoded character need arithmetic.
-/

namespace SqlScan.Text.Utf8

/-- The bytes that encode a text. -/
def encode (text : List Char) : List UInt8 := text.flatMap String.utf8EncodeChar

@[simp] theorem encode_nil : encode [] = [] := rfl

@[simp] theorem encode_cons (c : Char) (text : List Char) :
    encode (c :: text) = String.utf8EncodeChar c ++ encode text := List.flatMap_cons

theorem encode_append (text more : List Char) : encode (text ++ more) = encode text ++ encode more :=
  List.flatMap_append

theorem length_encode (text : List Char) : (encode text).length = Text.size text := by
  induction text with
  | nil => rfl
  | cons c cs ih => rw [encode_cons, List.length_append, String.length_utf8EncodeChar, ih, size_cons]

/-! ### The bytes behind a first byte -/

/-- Each byte is in its range: the first from `low` to `high`, all others from 0x80 to 0xBF. -/
def InRange (low high : Nat) : List UInt8 → Prop
  | [] => True
  | b :: bytes => (low ≤ b.toNat ∧ b.toNat ≤ high) ∧ InRange 0x80 0xBF bytes

/-- The number that some bytes spell behind a value, with six bits in each of them. -/
def number : List UInt8 → Nat → Nat
  | [], value => value
  | b :: bytes, value => number bytes (value * 64 + (b.toNat - 0x80))

theorem InRange.left {low high : Nat} {front more : List UInt8}
    (h : InRange low high (front ++ more)) : InRange low high front := by
  induction front generalizing low high with
  | nil => trivial
  | cons b front ih => exact ⟨h.1, ih h.2⟩

theorem inRange_replicate (count : Nat) : InRange 0x80 0xBF (List.replicate count 0x80) := by
  induction count with
  | zero => trivial
  | succ count ih => exact ⟨by decide, ih⟩

/-- Bytes in range can be followed by others up to any length. -/
theorem InRange.exists_append {low high count : Nat} {front : List UInt8} (hrange : low ≤ high)
    (hhigh : high < 0x100) (h : InRange low high front) (hlength : front.length ≤ count) :
    ∃ more, (front ++ more).length = count ∧ InRange low high (front ++ more) := by
  induction front generalizing low high count with
  | nil =>
    cases count with
    | zero => exact ⟨[], rfl, trivial⟩
    | succ count =>
      have hlow : (UInt8.ofNat low).toNat = low :=
        UInt8.toNat_ofNat_of_lt' (Nat.lt_of_le_of_lt hrange hhigh)
      exact ⟨UInt8.ofNat low :: List.replicate count 0x80, by simp, by omega, inRange_replicate count⟩
  | cons b front ih =>
    obtain ⟨count, rfl⟩ : ∃ n, count = n + 1 := ⟨count - 1, by rw [List.length_cons] at hlength; omega⟩
    obtain ⟨more, hmore, hin⟩ := ih (by decide) (by decide) h.2 (Nat.le_of_succ_le_succ hlength)
    exact ⟨more, congrArg (· + 1) hmore, h.1, hin⟩

namespace Ending

variable {low high count value : Nat} {bytes rest : List UInt8}

theorem read_append {tail : List UInt8} (hlength : tail.length = count)
    (h : InRange low high tail) (rest : List UInt8) :
    read low high count value (tail ++ rest) = .complete (number tail value) rest := by
  induction tail generalizing low high count value with
  | nil =>
    subst hlength
    rfl
  | cons b tail ih =>
    subst hlength
    rw [List.cons_append, List.length_cons, read, if_pos h.1, ih rfl h.2]
    rfl

theorem exists_of_complete {v : Nat} (h : read low high count value bytes = .complete v rest) :
    ∃ tail, bytes = tail ++ rest ∧ tail.length = count ∧ InRange low high tail ∧
      number tail value = v := by
  fun_induction read low high count value bytes with
  | case1 =>
    cases h
    exact ⟨[], rfl, rfl, trivial, rfl⟩
  | case2 => cases h
  | case3 low high count value b bytes hb v' rest' hread ih =>
    cases h
    obtain ⟨tail, rfl, rfl, hrange, rfl⟩ := ih hread
    exact ⟨b :: tail, rfl, rfl, ⟨hb, hrange⟩, rfl⟩
  | case4 => cases h
  | case5 => cases h

/-- Reading breaks off behind the longest front that is in range. -/
theorem of_broken {accepted : Nat} (h : read low high count value bytes = .broken accepted) :
    accepted < count ∧ (bytes.take accepted).length = accepted ∧ InRange low high (bytes.take accepted) ∧
      ∀ front, front <+: bytes → front.length ≤ count → InRange low high front →
        front.length ≤ accepted := by
  fun_induction read low high count value bytes generalizing accepted with
  | case1 => cases h
  | case2 =>
    cases h
    refine ⟨by omega, rfl, trivial, ?_⟩
    intro front hfront _ _
    rw [List.prefix_nil.1 hfront]
    exact Nat.le_refl 0
  | case3 => cases h
  | case4 low high count value b bytes hb accepted' hread ih =>
    cases h
    obtain ⟨hlt, hlength, hrange, hlongest⟩ := ih hread
    refine ⟨by omega, congrArg (· + 1) hlength, ⟨hb, hrange⟩, ?_⟩
    intro front hfront hcount hin
    rcases List.prefix_cons_iff.1 hfront with rfl | ⟨tail, rfl, htail⟩
    · exact Nat.zero_le _
    · exact Nat.succ_le_succ (hlongest tail htail (Nat.le_of_succ_le_succ hcount) hin.2)
  | case5 low high count value b bytes hb =>
    cases h
    refine ⟨by omega, rfl, trivial, ?_⟩
    intro front hfront _ hin
    rcases List.prefix_cons_iff.1 hfront with rfl | ⟨front, rfl, -⟩
    · exact Nat.le_refl 0
    · exact absurd hin.1 hb

end Ending

/-! ### One character -/

section Forms

variable {n : Nat}

theorem toNat_charOfNat (h : n.isValidChar) : (Char.ofNat n).val.toNat = n := by
  rw [Char.ofNat, dif_pos h]
  rfl

theorem utf8EncodeChar_one (h : n < 0x80) :
    String.utf8EncodeChar (Char.ofNat n) = [UInt8.ofNat n] := by
  rw [String.utf8EncodeChar, toNat_charOfNat (.inl (by omega)), if_pos (by omega)]

theorem utf8EncodeChar_two (hlow : 0x80 ≤ n) (hhigh : n < 0x800) :
    String.utf8EncodeChar (Char.ofNat n)
      = [UInt8.ofNat (n / 64 + 0xC0), UInt8.ofNat (n % 64 + 0x80)] := by
  rw [String.utf8EncodeChar, toNat_charOfNat (.inl (by omega)), if_neg (by omega),
    if_pos (by omega), Nat.mod_eq_of_lt (a := n / 64) (by omega)]

theorem utf8EncodeChar_three (hlow : 0x800 ≤ n) (hhigh : n < 0x10000)
    (hgap : n < 0xD800 ∨ 0xDFFF < n) :
    String.utf8EncodeChar (Char.ofNat n)
      = [UInt8.ofNat (n / 4096 + 0xE0), UInt8.ofNat (n / 64 % 64 + 0x80),
        UInt8.ofNat (n % 64 + 0x80)] := by
  have hvalid : n.isValidChar := hgap.imp_right fun h => ⟨h, by omega⟩
  rw [String.utf8EncodeChar, toNat_charOfNat hvalid, if_neg (by omega), if_neg (by omega),
    if_pos (by omega), Nat.mod_eq_of_lt (a := n / 4096) (by omega)]

theorem utf8EncodeChar_four (hlow : 0x10000 ≤ n) (hhigh : n < 0x110000) :
    String.utf8EncodeChar (Char.ofNat n)
      = [UInt8.ofNat (n / 262144 + 0xF0), UInt8.ofNat (n / 4096 % 64 + 0x80),
        UInt8.ofNat (n / 64 % 64 + 0x80), UInt8.ofNat (n % 64 + 0x80)] := by
  have hvalid : n.isValidChar := .inr ⟨by omega, hhigh⟩
  rw [String.utf8EncodeChar, toNat_charOfNat hvalid, if_neg (by omega), if_neg (by omega),
    if_neg (by omega), Nat.mod_eq_of_lt (a := n / 262144) (by omega)]

end Forms

namespace Owed

theorem ofFirst?_one {n : Nat} (h : n < 0x80) :
    ofFirst? (UInt8.ofNat n).toNat = some ⟨0, 0x80, 0xBF, n⟩ := by
  rw [UInt8.toNat_ofNat', Nat.mod_eq_of_lt (by omega), ofFirst?, if_pos h]

theorem ofFirst?_two {n : Nat} (hlow : 2 ≤ n) (hhigh : n < 0x20) :
    ofFirst? (UInt8.ofNat (n + 0xC0)).toNat = some ⟨1, 0x80, 0xBF, n⟩ := by
  have hvalue : n + 0xC0 - 0xC0 = n := by omega
  rw [UInt8.toNat_ofNat', Nat.mod_eq_of_lt (by omega), ofFirst?, if_neg (by omega),
    if_neg (by omega), if_pos (by omega), hvalue]

theorem ofFirst?_three {n : Nat} (h : n < 0x10) :
    ofFirst? (UInt8.ofNat (n + 0xE0)).toNat
      = some ⟨2, if n = 0 then 0xA0 else 0x80, if n = 0xD then 0x9F else 0xBF, n⟩ := by
  have hvalue : n + 0xE0 - 0xE0 = n := by omega
  rw [UInt8.toNat_ofNat', Nat.mod_eq_of_lt (by omega), ofFirst?, if_neg (by omega),
    if_neg (by omega), if_neg (by omega), if_pos (by omega), hvalue]
  simp

theorem ofFirst?_four {n : Nat} (h : n < 5) :
    ofFirst? (UInt8.ofNat (n + 0xF0)).toNat
      = some ⟨3, if n = 0 then 0x90 else 0x80, if n = 4 then 0x8F else 0xBF, n⟩ := by
  have hvalue : n + 0xF0 - 0xF0 = n := by omega
  rw [UInt8.toNat_ofNat', Nat.mod_eq_of_lt (by omega), ofFirst?, if_neg (by omega),
    if_neg (by omega), if_neg (by omega), if_neg (by omega), if_pos (by omega), hvalue]
  simp

/-- The first bytes that owe something, by what they owe. -/
theorem first_cases {first : UInt8} {owed : Owed} (h : ofFirst? first.toNat = some owed) :
    (∃ n < 0x80, first = UInt8.ofNat n) ∨ (∃ n, 2 ≤ n ∧ n < 0x20 ∧ first = UInt8.ofNat (n + 0xC0)) ∨
      (∃ n < 0x10, first = UInt8.ofNat (n + 0xE0)) ∨ ∃ n < 5, first = UInt8.ofNat (n + 0xF0) := by
  have hfirst : ∀ {n}, first.toNat = n → first = UInt8.ofNat n := by
    rintro n rfl
    exact UInt8.ofNat_toNat.symm
  by_cases h1 : first.toNat < 0x80
  · exact .inl ⟨first.toNat, h1, hfirst rfl⟩
  by_cases h2 : first.toNat < 0xC2
  · rw [ofFirst?, if_neg h1, if_pos h2] at h
    cases h
  by_cases h3 : first.toNat < 0xE0
  · exact .inr (.inl ⟨first.toNat - 0xC0, by omega, by omega, hfirst (by omega)⟩)
  by_cases h4 : first.toNat < 0xF0
  · exact .inr (.inr (.inl ⟨first.toNat - 0xE0, by omega, hfirst (by omega)⟩))
  by_cases h5 : first.toNat < 0xF5
  · exact .inr (.inr (.inr ⟨first.toNat - 0xF0, by omega, hfirst (by omega)⟩))
  · rw [ofFirst?, if_neg h1, if_neg h2, if_neg h3, if_neg h4, if_neg h5] at h
    cases h

end Owed

theorem exists_owed (c : Char) :
    ∃ first tail owed, String.utf8EncodeChar c = first :: tail ∧
      Owed.ofFirst? first.toNat = some owed ∧ tail.length = owed.count ∧
      InRange owed.low owed.high tail ∧ number tail owed.value = c.toNat := by
  obtain ⟨n, hn, rfl⟩ : ∃ n : Nat, n.isValidChar ∧ c = Char.ofNat n :=
    ⟨c.toNat, c.valid, (Char.ofNat_toNat c).symm⟩
  have hvalue : (Char.ofNat n).toNat = n := toNat_charOfNat hn
  have htail : ∀ n, (UInt8.ofNat (n % 64 + 0x80)).toNat = n % 64 + 0x80 :=
    fun n => by rw [UInt8.toNat_ofNat', Nat.mod_eq_of_lt (by omega)]
  have hlast := htail n
  have hmiddle := htail (n / 64)
  have hsecond := htail (n / 4096)
  rw [hvalue]
  unfold Nat.isValidChar at hn
  by_cases h1 : n < 0x80
  · exact ⟨_, _, _, utf8EncodeChar_one h1, Owed.ofFirst?_one h1, rfl, trivial, rfl⟩
  by_cases h2 : n < 0x800
  · refine ⟨_, _, _, utf8EncodeChar_two (by omega) h2, Owed.ofFirst?_two (by omega) (by omega),
      rfl, ?_, ?_⟩
    · simp only [InRange, and_true]
      omega
    · simp only [number]
      omega
  by_cases h3 : n < 0x10000
  · refine ⟨_, _, _, utf8EncodeChar_three (by omega) h3 (by omega), Owed.ofFirst?_three (by omega),
      rfl, ?_, ?_⟩
    · simp only [InRange, and_true]
      split <;> split <;> omega
    · simp only [number]
      omega
  · refine ⟨_, _, _, utf8EncodeChar_four (by omega) (by omega), Owed.ofFirst?_four (by omega), rfl,
      ?_, ?_⟩
    · simp only [InRange, and_true]
      split <;> split <;> omega
    · simp only [number]
      omega

/-- A first byte with as many bytes in range as it owes is a character. -/
theorem utf8EncodeChar_of_owed {first : UInt8} {tail : List UInt8} {owed : Owed}
    (howed : Owed.ofFirst? first.toNat = some owed) (hlength : tail.length = owed.count)
    (hrange : InRange owed.low owed.high tail) :
    String.utf8EncodeChar (Char.ofNat (number tail owed.value)) = first :: tail := by
  rcases Owed.first_cases howed with
    ⟨n, hn, rfl⟩ | ⟨n, hlow, hhigh, rfl⟩ | ⟨n, hn, rfl⟩ | ⟨n, hn, rfl⟩
  · rw [Owed.ofFirst?_one hn] at howed
    cases howed
    obtain rfl := List.length_eq_zero_iff.1 hlength
    rw [number, utf8EncodeChar_one hn]
  · rw [Owed.ofFirst?_two hlow hhigh] at howed
    cases howed
    obtain ⟨b, rfl⟩ := List.length_eq_one_iff.1 hlength
    simp only [InRange, number, and_true] at hrange ⊢
    generalize hv : n * 64 + (b.toNat - 0x80) = v
    have hfirst : v / 64 = n := by omega
    have hb : v % 64 + 0x80 = b.toNat := by omega
    rw [utf8EncodeChar_two (by omega) (by omega), hfirst, hb, UInt8.ofNat_toNat]
  · rw [Owed.ofFirst?_three hn] at howed
    cases howed
    obtain ⟨a, b, rfl⟩ := List.length_eq_two.1 hlength
    simp only [InRange, number, and_true] at hrange ⊢
    generalize hv : (n * 64 + (a.toNat - 0x80)) * 64 + (b.toNat - 0x80) = v
    obtain ⟨⟨hlow, hhigh⟩, hb_range⟩ := hrange
    have hrange : 0x800 ≤ v ∧ (v < 0xD800 ∨ 0xDFFF < v) ∧ 0x80 ≤ a.toNat ∧ a.toNat ≤ 0xBF := by
      split at hlow <;> split at hhigh <;> omega
    have hfirst : v / 4096 = n := by omega
    have ha : v / 64 % 64 + 0x80 = a.toNat := by omega
    have hb : v % 64 + 0x80 = b.toNat := by omega
    rw [utf8EncodeChar_three hrange.1 (by omega) hrange.2.1, hfirst, ha, hb, UInt8.ofNat_toNat,
      UInt8.ofNat_toNat]
  · rw [Owed.ofFirst?_four hn] at howed
    cases howed
    obtain ⟨a, b, d, rfl⟩ := List.length_eq_three.1 hlength
    simp only [InRange, number, and_true] at hrange ⊢
    generalize hv :
      ((n * 64 + (a.toNat - 0x80)) * 64 + (b.toNat - 0x80)) * 64 + (d.toNat - 0x80) = v
    obtain ⟨⟨hlow, hhigh⟩, hb_range, hd_range⟩ := hrange
    have hrange : 0x10000 ≤ v ∧ v < 0x110000 ∧ 0x80 ≤ a.toNat ∧ a.toNat ≤ 0xBF := by
      split at hlow <;> split at hhigh <;> omega
    have hfirst : v / 262144 = n := by omega
    have ha : v / 4096 % 64 + 0x80 = a.toNat := by omega
    have hb : v / 64 % 64 + 0x80 = b.toNat := by omega
    have hd : v % 64 + 0x80 = d.toNat := by omega
    rw [utf8EncodeChar_four hrange.1 hrange.2.1, hfirst, ha, hb, hd, UInt8.ofNat_toNat,
      UInt8.ofNat_toNat, UInt8.ofNat_toNat]

/-- A character is a first byte with as many bytes behind it as it owes, each in its range. -/
theorem utf8EncodeChar_eq_iff {c : Char} {first : UInt8} {tail : List UInt8} :
    String.utf8EncodeChar c = first :: tail ↔
      ∃ owed, Owed.ofFirst? first.toNat = some owed ∧ tail.length = owed.count ∧
        InRange owed.low owed.high tail ∧ Char.ofNat (number tail owed.value) = c := by
  constructor
  · intro h
    obtain ⟨first', tail', owed, hc, howed, hlength, hrange, hvalue⟩ := exists_owed c
    rw [h] at hc
    obtain ⟨rfl, rfl⟩ := List.cons.inj hc
    exact ⟨owed, howed, hlength, hrange, by rw [hvalue, Char.ofNat_toNat]⟩
  · rintro ⟨owed, howed, hlength, hrange, rfl⟩
    exact utf8EncodeChar_of_owed howed hlength hrange

/-! ### The front of a character -/

/-- The bytes are the encoding of a character or the front of one. -/
def Begins (front : List UInt8) : Prop := ∃ c, front <+: String.utf8EncodeChar c

theorem Owed.range_of_ofFirst? {first : UInt8} {owed : Owed}
    (h : Owed.ofFirst? first.toNat = some owed) : owed.low ≤ owed.high ∧ owed.high < 0x100 := by
  rcases Owed.first_cases h with
    ⟨n, hn, rfl⟩ | ⟨n, hlow, hhigh, rfl⟩ | ⟨n, hn, rfl⟩ | ⟨n, hn, rfl⟩
  · rw [Owed.ofFirst?_one hn] at h
    cases h
    dsimp only
    omega
  · rw [Owed.ofFirst?_two hlow hhigh] at h
    cases h
    dsimp only
    omega
  · rw [Owed.ofFirst?_three hn] at h
    cases h
    dsimp only
    split <;> split <;> omega
  · rw [Owed.ofFirst?_four hn] at h
    cases h
    dsimp only
    split <;> split <;> omega

theorem begins_cons_iff {first : UInt8} {front : List UInt8} :
    Begins (first :: front) ↔
      ∃ owed, Owed.ofFirst? first.toNat = some owed ∧ front.length ≤ owed.count ∧
        InRange owed.low owed.high front := by
  constructor
  · rintro ⟨c, more, hc⟩
    rw [List.cons_append] at hc
    obtain ⟨owed, howed, hlength, hrange, -⟩ := utf8EncodeChar_eq_iff.1 hc.symm
    rw [List.length_append] at hlength
    exact ⟨owed, howed, by omega, hrange.left⟩
  · rintro ⟨owed, howed, hlength, hrange⟩
    obtain ⟨hlow, hhigh⟩ := Owed.range_of_ofFirst? howed
    obtain ⟨more, hmore, hin⟩ := hrange.exists_append hlow hhigh hlength
    exact ⟨_, more, (utf8EncodeChar_eq_iff.2 ⟨owed, howed, hmore, hin, rfl⟩).symm⟩

/-- No character begins the bytes, and `bad` is the longest front of them that begins one, or the
first of them if none does. -/
structure Rejected (bad after : List UInt8) : Prop where
  ne_nil : bad ≠ []
  no_char : ∀ c, ¬ String.utf8EncodeChar c <+: bad ++ after
  begins : bad.length = 1 ∨ Begins bad
  longest : ∀ front, front <+: bad ++ after → Begins front → front.length ≤ bad.length

namespace Rejected

variable {bad bad' after after' : List UInt8}

theorem length_pos (h : Rejected bad after) : 0 < bad.length := List.length_pos_iff.2 h.ne_nil

theorem length_lt (h : Rejected bad after) : bad.length < 4 := by
  rcases h.begins with hone | ⟨c, hc⟩
  · omega
  · have hle := hc.length_le
    have hsize := Char.utf8Size_le_four c
    rw [String.length_utf8EncodeChar] at hle
    have hne : bad.length ≠ c.utf8Size := by
      intro heq
      have hwhole := hc.eq_of_length (heq.trans (String.length_utf8EncodeChar c).symm)
      exact h.no_char c (hwhole ▸ List.prefix_append bad after)
    omega

/-- What follows the longest front has no part in it. -/
theorem cut (h : Rejected bad after) : Rejected bad [] := by
  have hlonger : ∀ {front}, front <+: bad ++ [] → front <+: bad ++ after := by
    intro front hfront
    rw [List.append_nil] at hfront
    exact hfront.trans (List.prefix_append bad after)
  exact ⟨h.ne_nil, fun c hc => h.no_char c (hlonger hc), h.begins,
    fun front hfront => h.longest front (hlonger hfront)⟩

theorem length_le (h : Rejected bad after) (h' : Rejected bad' after')
    (heq : bad ++ after = bad' ++ after') : bad.length ≤ bad'.length := by
  rcases h.begins with hone | hbegins
  · have := h'.length_pos
    omega
  · exact h'.longest bad (heq ▸ List.prefix_append bad after) hbegins

theorem unique (h : Rejected bad after) (h' : Rejected bad' after')
    (heq : bad ++ after = bad' ++ after') : bad = bad' :=
  List.append_inj_left heq (Nat.le_antisymm (h.length_le h' heq) (h'.length_le h heq.symm))

end Rejected

/-! ### Decoding -/

/-- What reading answers if there is some text in front of the bytes. -/
def behind (text : List Char) : Except IllFormed (List Char) → Except IllFormed (List Char)
  | .ok more => .ok (text ++ more)
  | .error i => .error ⟨text ++ i.before, i.bytes⟩

section Step

variable {first : UInt8} {bytes : List UInt8} {owed : Owed}

theorem decode_of_not_first (howed : Owed.ofFirst? first.toNat = none) :
    decode (first :: bytes) = .error ⟨[], [first]⟩ := by
  rw [decode, howed]

theorem decode_of_broken {accepted : Nat} (howed : Owed.ofFirst? first.toNat = some owed)
    (hread : Ending.read owed.low owed.high owed.count owed.value bytes = .broken accepted) :
    decode (first :: bytes) = .error ⟨[], first :: bytes.take accepted⟩ := by
  rw [decode, howed]
  dsimp only
  split <;> rename_i hsame <;> rw [hread] at hsame <;> cases hsame
  rfl

theorem decode_of_complete {value : Nat} {rest : List UInt8}
    (howed : Owed.ofFirst? first.toNat = some owed)
    (hread : Ending.read owed.low owed.high owed.count owed.value bytes = .complete value rest) :
    decode (first :: bytes) = behind [Char.ofNat value] (decode rest) := by
  rw [decode, howed]
  dsimp only
  split <;> rename_i hsame <;> rw [hread] at hsame <;> cases hsame
  cases decode rest <;> rfl

end Step

theorem decode_char_append (c : Char) (rest : List UInt8) :
    decode (String.utf8EncodeChar c ++ rest) = behind [c] (decode rest) := by
  obtain ⟨first, tail, hc⟩ := List.exists_cons_of_ne_nil (String.utf8EncodeChar_ne_nil (c := c))
  obtain ⟨owed, howed, hlength, hrange, rfl⟩ := utf8EncodeChar_eq_iff.1 hc
  rw [hc, List.cons_append]
  exact decode_of_complete howed (Ending.read_append hlength hrange rest)

theorem behind_behind (text more : List Char) (answer : Except IllFormed (List Char)) :
    behind text (behind more answer) = behind (text ++ more) answer := by
  cases answer <;> simp [behind]

theorem decode_encode_append (text : List Char) (rest : List UInt8) :
    decode (encode text ++ rest) = behind text (decode rest) := by
  induction text with
  | nil =>
    rw [encode_nil, List.nil_append]
    cases decode rest <;> rfl
  | cons c cs ih =>
    rw [encode_cons, List.append_assoc, decode_char_append, ih, behind_behind]
    rfl

theorem decode_encode (text : List Char) : decode (encode text) = .ok text := by
  have h := decode_encode_append text []
  rw [List.append_nil, decode] at h
  rw [h, behind, List.append_nil]

/-- Where no character can be read, reading stops at once and splits off what is rejected. -/
theorem decode_of_no_char {first : UInt8} {bytes : List UInt8}
    (h : ∀ c, ¬ String.utf8EncodeChar c <+: first :: bytes) :
    ∃ bad after, first :: bytes = bad ++ after ∧ Rejected bad after ∧
      decode (first :: bytes) = .error ⟨[], bad⟩ := by
  cases howed : Owed.ofFirst? first.toNat with
  | none =>
    refine ⟨[first], bytes, rfl, ⟨by simp, h, .inl rfl, ?_⟩, decode_of_not_first howed⟩
    intro front hfront hbegins
    rcases List.prefix_cons_iff.1 hfront with rfl | ⟨tail, rfl, -⟩
    · exact Nat.zero_le _
    · obtain ⟨owed, hsome, -⟩ := begins_cons_iff.1 hbegins
      rw [howed] at hsome
      cases hsome
  | some owed =>
    cases hread : Ending.read owed.low owed.high owed.count owed.value bytes with
    | complete value rest =>
      obtain ⟨tail, rfl, hlength, hrange, -⟩ := Ending.exists_of_complete hread
      have hc := utf8EncodeChar_of_owed howed hlength hrange
      exact absurd ⟨rest, by rw [hc]; rfl⟩ (h _)
    | broken accepted =>
      obtain ⟨hlt, hlength, hrange, hlongest⟩ := Ending.of_broken hread
      refine ⟨first :: bytes.take accepted, bytes.drop accepted, ?_, ⟨by simp, ?_, ?_, ?_⟩,
        decode_of_broken howed hread⟩
      · rw [List.cons_append, List.take_append_drop]
      · rwa [List.cons_append, List.take_append_drop]
      · exact .inr (begins_cons_iff.2 ⟨owed, howed, by omega, hrange⟩)
      · intro front hfront hbegins
        rw [List.cons_append, List.take_append_drop] at hfront
        rcases List.prefix_cons_iff.1 hfront with rfl | ⟨tail, rfl, htail⟩
        · exact Nat.zero_le _
        · obtain ⟨owed', hsome, hcount, hin⟩ := begins_cons_iff.1 hbegins
          rw [howed] at hsome
          cases hsome
          rw [List.length_cons, List.length_cons, hlength]
          exact Nat.succ_le_succ (hlongest tail htail hcount hin)

theorem Rejected.decode_eq {bad after : List UInt8} (h : Rejected bad after) :
    decode (bad ++ after) = .error ⟨[], bad⟩ := by
  obtain ⟨first, bytes, hbytes⟩ := List.exists_cons_of_ne_nil
    (List.append_ne_nil_of_left_ne_nil h.ne_nil after)
  have hno_char := h.no_char
  rw [hbytes] at hno_char ⊢
  obtain ⟨bad', after', heq, hrejected, hdecode⟩ := decode_of_no_char hno_char
  rw [h.unique hrejected (hbytes.trans heq)]
  exact hdecode

theorem Rejected.decode_encode_append {bad after : List UInt8} (h : Rejected bad after)
    (before : List Char) : decode (encode before ++ (bad ++ after)) = .error ⟨before, bad⟩ := by
  rw [Utf8.decode_encode_append, h.decode_eq, behind, List.append_nil]

/-- Bytes are those of a text, or a text with something behind it that is rejected. -/
theorem exists_split (bytes : List UInt8) :
    (∃ text, bytes = encode text) ∨
      ∃ before bad after, bytes = encode before ++ (bad ++ after) ∧ Rejected bad after := by
  by_cases hchar : ∃ c, String.utf8EncodeChar c <+: bytes
  · obtain ⟨c, rest, rfl⟩ := hchar
    have hlt : rest.length < (String.utf8EncodeChar c ++ rest).length := by
      have hpos := Char.utf8Size_pos c
      rw [List.length_append, String.length_utf8EncodeChar]
      omega
    rcases exists_split rest with ⟨text, htext⟩ | ⟨before, bad, after, hsplit, hrejected⟩
    · exact .inl ⟨c :: text, by rw [htext, encode_cons]⟩
    · exact .inr ⟨c :: before, bad, after, by rw [hsplit, encode_cons, List.append_assoc], hrejected⟩
  · cases bytes with
    | nil => exact .inl ⟨[], rfl⟩
    | cons first bytes =>
      obtain ⟨bad, after, heq, hrejected, -⟩ := decode_of_no_char (not_exists.1 hchar)
      exact .inr ⟨[], bad, after, heq, hrejected⟩
termination_by bytes.length

theorem prefix_of_decode_eq_error {bytes : List UInt8} {i : IllFormed} (h : decode bytes = .error i)
    {text : List Char} (htext : encode text <+: bytes) : text <+: i.before := by
  obtain ⟨rest, rfl⟩ := htext
  rw [decode_encode_append] at h
  cases hrest : decode rest with
  | ok more =>
    rw [hrest] at h
    cases h
  | error i' =>
    rw [hrest] at h
    cases h
    exact List.prefix_append text i'.before

end SqlScan.Text.Utf8
