import SqlScan.Word

/-!
# Dotted names

A name is one or more segments joined by dots. A segment is a word that is not reserved, or any
text between double quotes. The name goes on over a dot only if a segment follows it directly;
otherwise it ends before the dot, which is then a delimiter of its own. A quote that never closes
after such a dot is a fault of its own, and the segments before it are given up.
-/

namespace SqlScan

inductive Segment where
  | bare (word : List Char)
  | quoted (value : List Char)
  deriving DecidableEq, Repr

namespace Segment

def text : Segment → List Char
  | .bare word => word
  | .quoted value => Quoted.text '"' value

def name : Segment → String
  | .bare word => String.ofList word
  | .quoted value => String.ofList value

end Segment

namespace Name

/-- Segments as they are written after another one. -/
def continued (segments : List Segment) : List Char :=
  segments.flatMap fun s => '.' :: s.text

/-- How the part of a name after its first segment ends: before some text, or at a quote that
nothing closes. -/
inductive Continuation where
  | complete (segments : List Segment) (rest : List Char)
  | unclosed (segments : List Segment) (quoted : List Char)
  deriving DecidableEq, Repr

def Continuation.cons (s : Segment) : Continuation → Continuation
  | .complete segments rest => .complete (s :: segments) rest
  | .unclosed segments quoted => .unclosed (s :: segments) quoted

/-- The segments that follow a first one, each behind its dot. -/
def continuation : List Char → Continuation
  | '.' :: '"' :: body =>
    match h : Quoted.read? '"' body with
    | some (value, rest) =>
      have : rest.length < body.length := Quoted.length_lt_of_read? h
      (continuation rest).cons (.quoted value)
    | none => .unclosed [] ('"' :: body)
  | '.' :: c :: cs =>
    let word := c :: cs.takeWhile Word.isPart
    if Word.isStart c && !Word.isReserved word then
      have : (cs.dropWhile Word.isPart).length ≤ cs.length := (List.dropWhile_sublist _).length_le
      (continuation (cs.dropWhile Word.isPart)).cons (.bare word)
    else
      .complete [] ('.' :: c :: cs)
  | text => .complete [] text
termination_by text => text.length

def Continuation.text : Continuation → List Char
  | .complete segments rest => continued segments ++ rest
  | .unclosed segments quoted => continued segments ++ '.' :: quoted

@[simp] theorem Continuation.text_cons (s : Segment) (k : Continuation) :
    (k.cons s).text = '.' :: s.text ++ k.text := by
  cases k <;> simp [Continuation.cons, Continuation.text, continued]

theorem text_continuation (text : List Char) : (continuation text).text = text := by
  fun_induction continuation text with
  | case1 body value rest h _ ih => simp [ih, Segment.text, Quoted.text_append_of_read? h]
  | case2 => simp [Continuation.text, continued]
  | case3 c cs _ word _ _ ih =>
    simp [ih, Segment.text, word, List.takeWhile_append_dropWhile]
  | case4 => simp [Continuation.text, continued]
  | case5 => simp [Continuation.text, continued]

/-- What nothing closes begins with a quote and has all others doubled. -/
theorem exists_encode_of_unclosed {text quoted : List Char} {segments : List Segment}
    (h : continuation text = .unclosed segments quoted) :
    ∃ value, quoted = '"' :: Quoted.encode '"' value := by
  fun_induction continuation text generalizing segments with
  | case1 body value rest _ _ ih =>
    cases hk : continuation rest with
    | complete => simp [hk, Continuation.cons] at h
    | unclosed more left =>
      simp only [hk, Continuation.cons, Continuation.unclosed.injEq] at h
      exact ih (h.2 ▸ hk)
  | case2 body hread =>
    simp only [Continuation.unclosed.injEq] at h
    obtain ⟨value, rfl⟩ := Quoted.exists_encode_of_read? hread
    exact ⟨value, h.2.symm⟩
  | case3 c cs _ _ _ _ =>
    rename_i ih
    cases hk : continuation (cs.dropWhile Word.isPart) with
    | complete => simp [hk, Continuation.cons] at h
    | unclosed more left =>
      simp only [hk, Continuation.cons, Continuation.unclosed.injEq] at h
      exact ih (h.2 ▸ hk)
  | case4 => simp at h
  | case5 => simp at h

end Name

end SqlScan
