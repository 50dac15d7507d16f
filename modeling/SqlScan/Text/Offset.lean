/-!
# Byte offsets into a text

A text is a list of characters and an offset counts the bytes of its UTF-8 form, so an offset can
miss every character boundary. Cutting at an offset is therefore partial: it succeeds exactly at
the boundaries, where the text is the first part followed by the second and the first part has as
many bytes as asked for.
-/

namespace SqlScan.Text

def size : List Char → Nat
  | [] => 0
  | c :: cs => c.utf8Size + size cs

@[simp] theorem size_nil : size [] = 0 := rfl

@[simp] theorem size_cons (c : Char) (cs : List Char) : size (c :: cs) = c.utf8Size + size cs := rfl

@[simp] theorem size_append (as bs : List Char) : size (as ++ bs) = size as + size bs := by
  induction as with
  | nil => simp
  | cons a as ih => simp [ih, Nat.add_assoc]

/-- The text before and the text after a byte offset that is a character boundary. -/
def cut? : Nat → List Char → Option (List Char × List Char)
  | 0, cs => some ([], cs)
  | _ + 1, [] => none
  | n + 1, c :: cs =>
    if c.utf8Size ≤ n + 1 then
      (cut? (n + 1 - c.utf8Size) cs).map fun (before, after) => (c :: before, after)
    else
      none

theorem append_of_cut? {n : Nat} {cs before after : List Char}
    (h : cut? n cs = some (before, after)) : before ++ after = cs ∧ size before = n := by
  fun_induction cut? n cs generalizing before with
  | case1 => simp_all
  | case2 => simp at h
  | case3 n c cs hle ih =>
    obtain ⟨⟨front, back⟩, hcut, heq⟩ := Option.map_eq_some_iff.1 h
    simp only [Prod.mk.injEq] at heq
    obtain ⟨rfl, rfl⟩ := heq
    obtain ⟨happend, hsize⟩ := ih hcut
    exact ⟨by simp [happend], by simp [hsize]; omega⟩
  | case4 => simp at h

theorem cut?_append (before after : List Char) :
    cut? (size before) (before ++ after) = some (before, after) := by
  induction before with
  | nil => simp [cut?]
  | cons c cs ih =>
    have hpos : 0 < c.utf8Size := Char.utf8Size_pos c
    obtain ⟨n, hn⟩ : ∃ n, c.utf8Size + size cs = n + 1 := ⟨c.utf8Size + size cs - 1, by omega⟩
    have hrest : n + 1 - c.utf8Size = size cs := by omega
    simp [hn, cut?, hrest, ih]
    omega

/-- The part of a text from one offset to another; none if either is past the end or inside a
character, or if they are out of order. -/
def slice? (start stop : Nat) (cs : List Char) : Option (List Char) :=
  if start ≤ stop then
    (cut? start cs).bind fun (_, after) =>
      (cut? (stop - start) after).map fun (part, _) => part
  else
    none

/-- The characters that begin before a byte offset, which need not be a boundary. -/
def begunBefore : Nat → List Char → List Char
  | 0, _ => []
  | _ + 1, [] => []
  | n + 1, c :: cs => c :: begunBefore (n + 1 - c.utf8Size) cs

end SqlScan.Text
