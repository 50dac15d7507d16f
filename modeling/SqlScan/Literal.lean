import SqlScan.Binary64

/-!
# Literal values and quoted text

A literal is a value that a source spells: a string between quotes, a number, or one of a few words.

A quote opens a body that runs to the next quote standing alone; a quote inside the body is
written twice. Reading a body and writing it are inverse, so a body that closes has exactly one
value, and a text whose every quote is doubled never closes.
-/

namespace SqlScan

inductive Literal where
  | string (value : String)
  | integer (value : Int64)
  | float (value : Binary64)
  | boolean (value : Bool)
  | null
  deriving DecidableEq, Repr

namespace Literal

/-- The literal that a word spells, if any; the case of ASCII letters does not count. -/
def ofWord? (word : List Char) : Option Literal :=
  match String.ofList (word.map Char.toLower) with
  | "true" => some (.boolean true)
  | "false" => some (.boolean false)
  | "null" => some .null
  | _ => none

end Literal

namespace Quoted

/-- A body as it is written: each quote twice, every other character once. -/
def encode (quote : Char) : List Char → List Char
  | [] => []
  | c :: cs => if c = quote then quote :: quote :: encode quote cs else c :: encode quote cs

def text (quote : Char) (value : List Char) : List Char :=
  quote :: (encode quote value ++ [quote])

/-- The value of the body that begins a text, and what follows its closing quote; none if no quote
closes it. -/
def read? (quote : Char) : List Char → Option (List Char × List Char)
  | [] => none
  | [c] => if c = quote then some ([], []) else none
  | c :: d :: cs =>
    if c = quote then
      if d = quote then
        (read? quote cs).map fun (value, rest) => (quote :: value, rest)
      else
        some ([], d :: cs)
    else
      (read? quote (d :: cs)).map fun (value, rest) => (c :: value, rest)

theorem eq_encode_of_read? {quote : Char} {body value rest : List Char}
    (h : read? quote body = some (value, rest)) : body = encode quote value ++ quote :: rest := by
  fun_induction read? quote body generalizing value with
  | case1 => simp at h
  | case2 => simp_all [encode]
  | case3 => simp at h
  | case4 cs ih =>
    obtain ⟨⟨inner, after⟩, hread, heq⟩ := Option.map_eq_some_iff.1 h
    simp only [Prod.mk.injEq] at heq
    obtain ⟨rfl, rfl⟩ := heq
    simp [encode, ih hread]
  | case5 => simp_all [encode]
  | case6 c d cs hc ih =>
    obtain ⟨⟨inner, after⟩, hread, heq⟩ := Option.map_eq_some_iff.1 h
    simp only [Prod.mk.injEq] at heq
    obtain ⟨rfl, rfl⟩ := heq
    simp [encode, hc, ih hread]

theorem read?_encode {quote : Char} {rest : List Char} (value : List Char)
    (hrest : rest.head? ≠ some quote) :
    read? quote (encode quote value ++ quote :: rest) = some (value, rest) := by
  induction value with
  | nil => cases rest <;> simp_all [encode, read?]
  | cons c cs ih =>
    by_cases hc : c = quote
    · subst hc
      simp [encode, read?, ih]
    · obtain ⟨d, ds, hds⟩ : ∃ d ds, encode quote cs ++ quote :: rest = d :: ds := by
        cases h : encode quote cs ++ quote :: rest with
        | nil => simp at h
        | cons d ds => exact ⟨d, ds, rfl⟩
      rw [hds] at ih
      simp [encode, hc, hds, read?, ih]

/-- A body that no quote closes has all its quotes doubled. -/
theorem exists_encode_of_read? {quote : Char} {body : List Char}
    (h : read? quote body = none) : ∃ value, body = encode quote value := by
  fun_induction read? quote body with
  | case1 => exact ⟨[], rfl⟩
  | case2 => simp at h
  | case3 c hc => exact ⟨[c], by simp [encode, hc]⟩
  | case4 cs ih =>
    obtain ⟨value, rfl⟩ := ih (Option.map_eq_none_iff.1 h)
    exact ⟨quote :: value, by simp [encode]⟩
  | case5 => simp at h
  | case6 c d cs hc ih =>
    obtain ⟨value, hvalue⟩ := ih (Option.map_eq_none_iff.1 h)
    exact ⟨c :: value, by simp [encode, hc, hvalue]⟩

theorem text_append_of_read? {quote : Char} {body value rest : List Char}
    (h : read? quote body = some (value, rest)) : text quote value ++ rest = quote :: body := by
  simp [text, eq_encode_of_read? h]

theorem length_lt_of_read? {quote : Char} {body value rest : List Char}
    (h : read? quote body = some (value, rest)) : rest.length < body.length := by
  rw [eq_encode_of_read? h]
  simp only [List.length_append, List.length_cons]
  omega

end Quoted

end SqlScan
