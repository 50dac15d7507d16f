/-!
# Reading bytes as UTF-8

The first byte of a character says how many more bytes belong to it, and narrows the range of the
second: that is what rules out overlong forms, surrogates and code points past the last. Where the
bytes stop being well formed, the fault is the longest run that could have begun a character, so
one fault covers one to three bytes, and what follows it does not change it.
-/

namespace SqlScan.Text.Utf8

/-- What the first byte of a character calls for: the bytes owed, the range of the next of them,
and the part of the code point given so far. -/
structure Owed where
  count : Nat
  low : Nat
  high : Nat
  value : Nat

/-- What a first byte calls for; none if no character begins with it. -/
def Owed.ofFirst? (b : Nat) : Option Owed :=
  if b < 0x80 then some ⟨0, 0x80, 0xBF, b⟩
  else if b < 0xC2 then none
  else if b < 0xE0 then some ⟨1, 0x80, 0xBF, b - 0xC0⟩
  else if b < 0xF0 then
    some ⟨2, if b = 0xE0 then 0xA0 else 0x80, if b = 0xED then 0x9F else 0xBF, b - 0xE0⟩
  else if b < 0xF5 then
    some ⟨3, if b = 0xF0 then 0x90 else 0x80, if b = 0xF4 then 0x8F else 0xBF, b - 0xF0⟩
  else none

/-- The outcome of reading one character's remaining bytes: its code point and the bytes after it,
or the number of bytes that were still well formed. -/
inductive Ending where
  | complete (value : Nat) (rest : List UInt8)
  | broken (accepted : Nat)

/-- Reads the bytes still owed; only the first of them has a range of its own. -/
def Ending.read (low high : Nat) : (count value : Nat) → List UInt8 → Ending
  | 0, value, bytes => .complete value bytes
  | _ + 1, _, [] => .broken 0
  | count + 1, value, b :: bytes =>
    if low ≤ b.toNat ∧ b.toNat ≤ high then
      match Ending.read 0x80 0xBF count (value * 64 + (b.toNat - 0x80)) bytes with
      | .complete value rest => .complete value rest
      | .broken accepted => .broken (accepted + 1)
    else
      .broken 0

theorem Ending.length_le_of_read {low high count value v : Nat} {bytes rest : List UInt8}
    (h : Ending.read low high count value bytes = .complete v rest) :
    rest.length ≤ bytes.length := by
  fun_induction Ending.read low high count value bytes with
  | case1 => simp_all
  | case2 => simp at h
  | case3 low high count value b bytes hb _ _ hread ih =>
    simp only [Ending.complete.injEq] at h
    obtain ⟨rfl, rfl⟩ := h
    have := ih hread
    simp only [List.length_cons]
    omega
  | case4 => simp at h
  | case5 => simp at h

/-- Bytes that are no text: the characters read before the fault, and the bytes of the fault. -/
structure IllFormed where
  before : List Char
  bytes : List UInt8
  deriving DecidableEq, Repr

/-- The text that some bytes encode, or where they stop encoding one. -/
def decode : List UInt8 → Except IllFormed (List Char)
  | [] => .ok []
  | first :: bytes =>
    match Owed.ofFirst? first.toNat with
    | none => .error ⟨[], [first]⟩
    | some owed =>
      match h : Ending.read owed.low owed.high owed.count owed.value bytes with
      | .broken accepted => .error ⟨[], first :: bytes.take accepted⟩
      | .complete value rest =>
        have : rest.length < bytes.length + 1 := by
          have := Ending.length_le_of_read h
          omega
        match decode rest with
        | .ok text => .ok (Char.ofNat value :: text)
        | .error fault => .error ⟨Char.ofNat value :: fault.before, fault.bytes⟩
termination_by bytes => bytes.length

end SqlScan.Text.Utf8
