import SqlScan.Lexeme
import SqlScan.Proofs.Names
import SqlScan.Proofs.Numerals
import SqlScan.Proofs.Trivia

/-!
# The case of ASCII letters

A text with its ASCII letters in small case has the same characters everywhere else, of the same
sizes, and whatever is asked of a single character is answered alike for both cases of a letter. So
each reader, given the small text, finds what it finds in the text itself, with that in small case.
-/

namespace SqlScan.Text

theorem toLower_capital : ∀ n < 26, (Char.ofNat (n + 65)).toLower = Char.ofNat (n + 97) := by
  decide

theorem toLower_cases (c : Char) :
    c.toLower = c ∨ ∃ n < 26, c = Char.ofNat (n + 65) ∧ c.toLower = Char.ofNat (n + 97) := by
  by_cases h : c.val ≥ 'A'.val ∧ c.val ≤ 'Z'.val
  · right
    obtain ⟨hlow, hhigh⟩ := h
    have hlow : 65 ≤ c.toNat := UInt32.le_iff_toNat_le.1 hlow
    have hhigh : c.toNat ≤ 90 := UInt32.le_iff_toNat_le.1 hhigh
    have hn : c.toNat - 65 < 26 := by omega
    have hc : c = Char.ofNat (c.toNat - 65 + 65) := by
      rw [Nat.sub_add_cancel hlow, Char.ofNat_toNat]
    refine ⟨c.toNat - 65, hn, hc, ?_⟩
    rw [← toLower_capital _ hn, ← hc]
  · left
    exact dif_neg h

/-- What is the same for the two cases of each letter is the same for small letters. -/
theorem apply_toLower {α : Type} {f : Char → α}
    (h : ∀ n < 26, f (Char.ofNat (n + 97)) = f (Char.ofNat (n + 65))) (c : Char) :
    f c.toLower = f c := by
  rcases toLower_cases c with hc | ⟨n, hn, hc, hlower⟩
  · rw [hc]
  · rw [hlower, h n hn, ← hc]

theorem toLower_toUpper (c : Char) : c.toUpper.toLower = c.toLower := by
  by_cases h : 'a'.val ≤ c.val ∧ c.val ≤ 'z'.val
  · have hsmall : ∀ n < 26,
        (Char.ofNat (n + 97)).toUpper.toLower = (Char.ofNat (n + 97)).toLower := by decide
    have hlow : 97 ≤ c.toNat := UInt32.le_iff_toNat_le.1 h.1
    have hhigh : c.toNat ≤ 122 := UInt32.le_iff_toNat_le.1 h.2
    have hc := hsmall (c.toNat - 97) (by omega)
    rwa [Nat.sub_add_cancel hlow, Char.ofNat_toNat] at hc
  · have hsame : c.toUpper = c := dif_neg h
    rw [hsame]

@[simp] theorem utf8Size_toLower (c : Char) : c.toLower.utf8Size = c.utf8Size :=
  apply_toLower (by decide) c

@[simp] theorem isBlank_toLower (c : Char) : isBlank c.toLower = isBlank c :=
  apply_toLower (by decide) c

@[simp] theorem isDigit_toLower (c : Char) : c.toLower.isDigit = c.isDigit :=
  apply_toLower (by decide) c

@[simp] theorem isStart_toLower (c : Char) : Word.isStart c.toLower = Word.isStart c :=
  apply_toLower (by decide) c

@[simp] theorem isPart_toLower (c : Char) : Word.isPart c.toLower = Word.isPart c :=
  apply_toLower (by decide) c

@[simp] theorem delimiter_toLower (c : Char) :
    Delimiter.ofChar? c.toLower = Delimiter.ofChar? c :=
  apply_toLower (by decide) c

@[simp] theorem operator_toLower (c : Char) :
    Operator.ofChar? c.toLower = Operator.ofChar? c :=
  apply_toLower (by decide) c

/-- What no capital is stays as it is. -/
theorem toLower_of_no_capital {p : Char → Prop} (hp : ∀ n < 26, ¬ p (Char.ofNat (n + 65)))
    {c : Char} (h : p c) : c.toLower = c := by
  rcases toLower_cases c with hc | ⟨n, hn, rfl, -⟩
  · exact hc
  · exact absurd h (hp n hn)

theorem toLower_of_isDigit {c : Char} (h : c.isDigit) : c.toLower = c :=
  toLower_of_no_capital (p := fun c => c.isDigit) (by decide) h

theorem toLower_of_not_isStart {c : Char} (h : ¬ Word.isStart c) : c.toLower = c :=
  toLower_of_no_capital (p := fun c => ¬ Word.isStart c) (by decide) h

theorem isAlpha_letter :
    ∀ n < 26, (Char.ofNat (n + 97)).isAlpha ∧ (Char.ofNat (n + 65)).isAlpha := by
  decide

/-- A character that is no letter is the small case of itself alone. -/
theorem toLower_eq_iff {c q : Char} (hq : q.isAlpha = false) : c.toLower = q ↔ c = q := by
  rcases toLower_cases c with hc | ⟨n, hn, hc, hlower⟩
  · rw [hc]
  · obtain ⟨hsmall, hcapital⟩ := isAlpha_letter n hn
    rw [← hlower] at hsmall
    rw [← hc] at hcapital
    constructor
    · rintro rfl
      rw [hsmall] at hq
      cases hq
    · rintro rfl
      rw [hcapital] at hq
      cases hq

theorem toLower_of_not_isAlpha {q : Char} (hq : q.isAlpha = false) : q.toLower = q :=
  (toLower_eq_iff hq).2 rfl

theorem not_newline_toLower (c : Char) : (c.toLower != '\n') = (c != '\n') :=
  apply_toLower (f := (· != '\n')) (by decide) c

@[simp] theorem toLower_eq_e_iff (c : Char) :
    (c.toLower = 'e' ∨ c.toLower = 'E') ↔ (c = 'e' ∨ c = 'E') := by
  have h := apply_toLower (f := fun c => decide (c = 'e' ∨ c = 'E')) (by decide) c
  simpa only [decide_eq_decide] using h

theorem toLower_eq_sign_iff (c : Char) :
    (c.toLower = '+' ∨ c.toLower = '-') ↔ (c = '+' ∨ c = '-') :=
  or_congr (toLower_eq_iff (by decide)) (toLower_eq_iff (by decide))

/-! ### Texts -/

/-- The text with its ASCII letters in small case. -/
def lower (cs : List Char) : List Char := cs.map Char.toLower

@[simp] theorem lower_nil : lower [] = [] := rfl

@[simp] theorem lower_cons (c : Char) (cs : List Char) :
    lower (c :: cs) = c.toLower :: lower cs := rfl

@[simp] theorem lower_append (as bs : List Char) : lower (as ++ bs) = lower as ++ lower bs :=
  List.map_append

theorem map_toUpper_lower (cs : List Char) : (lower cs).map Char.toUpper = cs.map Char.toUpper := by
  rw [lower, List.map_map]
  exact List.map_congr_left fun c _ => apply_toLower (by decide) c

theorem exists_of_lower_eq_cons {q : Char} {cs ds : List Char} (hq : q.isAlpha = false)
    (h : lower cs = q :: ds) : ∃ es, cs = q :: es ∧ lower es = ds := by
  obtain ⟨c, es, rfl, hc, hes⟩ := List.map_eq_cons_iff.1 h
  rw [toLower_eq_iff hq] at hc
  exact ⟨es, by rw [hc], hes⟩

/-- Two characters that are no letters begin a text in small case only where they begin the text. -/
theorem not_begun_lower {q r c : Char} {cs : List Char} (hq : q.isAlpha = false)
    (hr : r.isAlpha = false) (h : ∀ es, c = q → cs = r :: es → False) :
    ∀ es, c.toLower = q → lower cs = r :: es → False := by
  intro es hc hcs
  obtain ⟨fs, hfs, -⟩ := exists_of_lower_eq_cons hr hcs
  exact h fs ((toLower_eq_iff hq).1 hc) hfs

section

variable (p : Char → Bool)

theorem takeWhile_lower (hp : ∀ c, p c.toLower = p c) (cs : List Char) :
    (lower cs).takeWhile p = lower (cs.takeWhile p) := by
  have hsame : p ∘ Char.toLower = p := funext hp
  rw [lower, List.takeWhile_map, hsame, lower]

theorem dropWhile_lower (hp : ∀ c, p c.toLower = p c) (cs : List Char) :
    (lower cs).dropWhile p = lower (cs.dropWhile p) := by
  have hsame : p ∘ Char.toLower = p := funext hp
  rw [lower, List.dropWhile_map, hsame, lower]

end

theorem lower_of_digits {digits : List Char} (h : ∀ c ∈ digits, c.isDigit) :
    lower digits = digits := by
  induction digits with
  | nil => rfl
  | cons c cs ih =>
    obtain ⟨hc, hcs⟩ := List.forall_mem_cons.1 h
    rw [lower_cons, toLower_of_isDigit hc, ih hcs]

theorem takeWhile_isDigit_lower (cs : List Char) :
    (lower cs).takeWhile Char.isDigit = cs.takeWhile Char.isDigit := by
  rw [takeWhile_lower Char.isDigit isDigit_toLower]
  exact lower_of_digits fun c hc => List.mem_takeWhile_imp hc

theorem dropWhile_isDigit_lower (cs : List Char) :
    (lower cs).dropWhile Char.isDigit = lower (cs.dropWhile Char.isDigit) :=
  dropWhile_lower Char.isDigit isDigit_toLower cs

theorem toList_toLower (s : String) : s.toLower.toList = lower s.toList := String.toList_map

theorem toLower_ofList (cs : List Char) :
    (String.ofList cs).toLower = String.ofList (lower cs) := by
  apply String.toList_injective
  rw [toList_toLower, String.toList_ofList, String.toList_ofList]

theorem toLower_singleton {c : Char} (h : c.toLower = c) :
    (String.singleton c).toLower = String.singleton c := by
  apply String.toList_injective
  rw [toList_toLower, String.toList_singleton, lower_cons, h, lower_nil]

end SqlScan.Text

namespace SqlScan

open Text (lower)

/-! ### Operators -/

namespace Operator

theorem ofPair?_of_isAlpha_left {c : Char} (h : c.isAlpha) (d : Char) : ofPair? c d = none := by
  unfold ofPair?
  split <;> first | rfl | exact absurd h (by decide)

theorem ofPair?_of_isAlpha_right {d : Char} (h : d.isAlpha) (c : Char) : ofPair? c d = none := by
  unfold ofPair?
  split <;> first | rfl | exact absurd h (by decide)

theorem ofPair?_toLower (c d : Char) : ofPair? c.toLower d.toLower = ofPair? c d := by
  rcases Text.toLower_cases c with hc | ⟨n, hn, hc, hlower⟩
  · rcases Text.toLower_cases d with hd | ⟨n, hn, hd, hlower⟩
    · rw [hc, hd]
    · obtain ⟨hsmall, hcapital⟩ := Text.isAlpha_letter n hn
      rw [ofPair?_of_isAlpha_right (hlower ▸ hsmall), ofPair?_of_isAlpha_right (hd ▸ hcapital)]
  · obtain ⟨hsmall, hcapital⟩ := Text.isAlpha_letter n hn
    rw [ofPair?_of_isAlpha_left (hlower ▸ hsmall), ofPair?_of_isAlpha_left (hc ▸ hcapital)]

theorem read?_lower (text : List Char) :
    read? (lower text) = (read? text).map (Prod.map id (Prod.map lower lower)) := by
  match text with
  | [] => rfl
  | [c] => cases h : ofChar? c <;> simp [read?, h]
  | c :: d :: rest =>
    cases hpair : ofPair? c d with
    | some o => simp [read?, ofPair?_toLower, hpair]
    | none => cases h : ofChar? c <;> simp [read?, ofPair?_toLower, hpair, h]

end Operator

/-! ### Gaps -/

namespace Gap

theorem closing?_lower (text : List Char) :
    closing? (lower text) = (closing? text).map (Prod.map lower lower) := by
  fun_induction closing? text with
  | case1 => rfl
  | case2 rest => rfl
  | case3 c rest hno ih =>
    rw [Text.lower_cons, closing?, ih]
    · cases closing? rest <;> rfl
    · exact Text.not_begun_lower (by decide) (by decide) hno

def Ending.lower : Ending → Ending
  | .clear gap rest => .clear (Text.lower gap) (Text.lower rest)
  | .unclosed gap comment => .unclosed (Text.lower gap) (Text.lower comment)

theorem Ending.after_lower (front : List Char) (e : Ending) :
    e.lower.after (Text.lower front) = (e.after front).lower := by
  cases e <;> simp [after, lower]

theorem read_lower (text : List Char) : read (lower text) = (read text).lower := by
  -- what begins and what ends a comment are no letters, so each case stays the case that it is
  fun_induction read text with
  | case1 rest _ ih =>
    have htake := Text.takeWhile_lower (· != '\n') Text.not_newline_toLower rest
    have hdrop := Text.dropWhile_lower (· != '\n') Text.not_newline_toLower rest
    have hline : read ('-' :: '-' :: lower rest)
        = ((read (rest.dropWhile (· != '\n'))).lower).after
          ('-' :: '-' :: lower (rest.takeWhile (· != '\n'))) := by
      rw [read, htake, hdrop, ih]
    exact hline.trans (Ending.after_lower ('-' :: '-' :: rest.takeWhile (· != '\n')) _)
  | case2 rest comment after h _ ih =>
    have hclosing := closing?_lower rest
    rw [h] at hclosing
    rw [← Ending.after_lower, ← ih]
    exact read_of_closing? hclosing
  | case3 rest h =>
    have hclosing := closing?_lower rest
    rw [h] at hclosing
    exact read_of_closing?_eq_none hclosing
  | case4 c rest hline hblock hblank ih =>
    rw [← Ending.after_lower, ← ih]
    exact read_blank (by simpa using hblank) _
  | case5 c rest hline hblock hblank =>
    rw [Text.lower_cons, read]
    · simp [hblank, Ending.lower]
    · exact Text.not_begun_lower (by decide) (by decide) hline
    · exact Text.not_begun_lower (by decide) (by decide) hblock
  | case6 => simp [read, Ending.lower]

end Gap

/-! ### Quoted texts, words and names -/

theorem Quoted.read?_lower (quote : Char) (hquote : quote.isAlpha = false) (body : List Char) :
    read? quote (lower body) = (read? quote body).map (Prod.map lower lower) := by
  have hsame := Text.toLower_of_not_isAlpha hquote
  fun_induction read? quote body with
  | case1 => rfl
  | case2 => simp [read?, hsame]
  | case3 c hc => simp [read?, Text.toLower_eq_iff hquote, hc]
  | case4 cs ih =>
    simp only [Text.lower_cons, read?, hsame, ih]
    cases read? quote cs <;> simp [hsame]
  | case5 d cs hd => simp [read?, hsame, Text.toLower_eq_iff hquote, hd]
  | case6 c d cs hc ih =>
    simp only [Text.lower_cons] at ih
    simp only [Text.lower_cons, read?, Text.toLower_eq_iff hquote, hc, if_false, ih]
    cases read? quote (d :: cs) <;> simp

theorem Literal.ofWord?_lower (word : List Char) : ofWord? (lower word) = ofWord? word := by
  have hword : (lower word).map Char.toLower = word.map Char.toLower := by
    rw [lower, List.map_map]
    exact List.map_congr_left fun c _ => Text.apply_toLower (by decide) c
  rw [ofWord?, hword, ofWord?]

theorem Keyword.ofWord?_lower (word : List Char) : ofWord? (lower word) = ofWord? word := by
  have hword : (lower word).map Char.toUpper = word.map Char.toUpper :=
    Text.map_toUpper_lower word
  rw [ofWord?, capitals, hword, ofWord?, capitals]

theorem Word.isReserved_lower (word : List Char) : isReserved (lower word) = isReserved word := by
  rw [isReserved, Literal.ofWord?_lower, Keyword.ofWord?_lower, isReserved]

def Segment.lower : Segment → Segment
  | .bare word => .bare (Text.lower word)
  | .quoted value => .quoted (Text.lower value)

theorem Segment.name_lower (s : Segment) : s.lower.name = s.name.toLower := by
  cases s <;> simp [lower, name, Text.toLower_ofList]

theorem Quoted.encode_lower {quote : Char} (hquote : quote.isAlpha = false) (value : List Char) :
    encode quote (lower value) = lower (encode quote value) := by
  have hsame := Text.toLower_of_not_isAlpha hquote
  induction value with
  | nil => rfl
  | cons c cs ih =>
    by_cases hc : c = quote
    · simp [encode, hc, hsame, ih]
    · simp [encode, hc, Text.toLower_eq_iff hquote, ih]

theorem Quoted.text_lower {quote : Char} (hquote : quote.isAlpha = false) (value : List Char) :
    text quote (lower value) = lower (text quote value) := by
  have hsame := Text.toLower_of_not_isAlpha hquote
  simp [text, encode_lower hquote, hsame]

theorem Segment.text_lower (s : Segment) : s.lower.text = Text.lower s.text := by
  cases s with
  | bare word => rfl
  | quoted value => exact Quoted.text_lower (by decide) value

namespace Name

theorem continued_lower (segments : List Segment) :
    continued (segments.map Segment.lower) = lower (continued segments) := by
  induction segments with
  | nil => rfl
  | cons s more ih =>
    have hcons : ∀ s more, continued (s :: more) = '.' :: (s.text ++ continued more) :=
      fun _ _ => rfl
    rw [List.map_cons, hcons, hcons, ih, Segment.text_lower, Text.lower_cons, Text.lower_append]
    rfl

def Continuation.lower : Continuation → Continuation
  | .complete segments rest => .complete (segments.map Segment.lower) (Text.lower rest)
  | .unclosed segments quoted => .unclosed (segments.map Segment.lower) (Text.lower quoted)

theorem Continuation.cons_lower (s : Segment) (k : Continuation) :
    k.lower.cons s.lower = (k.cons s).lower := by
  cases k <;> rfl

theorem continuation_lower_dot {c : Char} (h : c ≠ '"') (cs : List Char) :
    continuation (lower ('.' :: c :: cs)) =
      if Word.isStart c && !Word.isReserved (c :: cs.takeWhile Word.isPart) then
        (continuation (lower (cs.dropWhile Word.isPart))).cons
          (.bare (lower (c :: cs.takeWhile Word.isPart)))
      else
        .complete [] (lower ('.' :: c :: cs)) := by
  have hquote : c.toLower ≠ '"' := fun hc => h ((Text.toLower_eq_iff (by decide)).1 hc)
  have htake := Text.takeWhile_lower Word.isPart Text.isPart_toLower cs
  have hdrop := Text.dropWhile_lower Word.isPart Text.isPart_toLower cs
  have hreserved := Word.isReserved_lower (c :: cs.takeWhile Word.isPart)
  rw [Text.lower_cons] at hreserved
  show continuation ('.' :: c.toLower :: lower cs) = _
  rw [continuation_dot hquote, htake, hdrop, hreserved, Text.isStart_toLower]
  rfl

theorem continuation_lower (text : List Char) :
    continuation (lower text) = (continuation text).lower := by
  fun_induction continuation text with
  | case1 body value rest h _ ih =>
    have hread := Quoted.read?_lower '"' (by decide) body
    rw [h] at hread
    rw [← Continuation.cons_lower, ← ih]
    exact continuation_of_read? hread
  | case2 body h =>
    have hread := Quoted.read?_lower '"' (by decide) body
    rw [h] at hread
    exact continuation_of_read?_eq_none hread
  | case3 c cs hc word hword _ ih =>
    rw [continuation_lower_dot hc, if_pos hword, ih]
    exact Continuation.cons_lower (.bare word) _
  | case4 c cs hc word hword =>
    rw [continuation_lower_dot hc, if_neg hword]
    rfl
  | case5 text hquoted hdotted =>
    rw [continuation]
    · rfl
    · intro body hbody
      obtain ⟨es, rfl, hes⟩ := Text.exists_of_lower_eq_cons (by decide) hbody
      obtain ⟨fs, rfl, -⟩ := Text.exists_of_lower_eq_cons (by decide) hes
      exact hquoted fs rfl
    · intro c cs hcs
      obtain ⟨es, rfl, hes⟩ := Text.exists_of_lower_eq_cons (by decide) hcs
      obtain ⟨d, ds, rfl, -, -⟩ := List.map_eq_cons_iff.1 hes
      exact hdotted d ds rfl

end Name

/-! ### Numerals -/

def Exponent.lower (e : Exponent) : Exponent := { e with letter := e.letter.toLower }

theorem Exponent.text_lower {e : Exponent} (h : e.WellFormed) :
    e.lower.text = Text.lower e.text := by
  have hsign : Text.lower e.sign.toList = e.sign.toList := by
    cases hs : e.sign with
    | none => rfl
    | some s =>
      rcases h.sign s hs with rfl | rfl
      · rfl
      · rfl
  rw [text, text, Text.lower_cons, Text.lower_append, hsign, Text.lower_of_digits h.digits]
  rfl

theorem Exponent.read?_lower (cs : List Char) :
    read? (Text.lower cs) = (read? cs).map (Prod.map Exponent.lower Text.lower) := by
  match cs with
  | [] => rfl
  | [c] => by_cases hc : c = 'e' ∨ c = 'E' <;> simp [read?, hc, lower]
  | c :: s :: ds =>
    by_cases hc : c = 'e' ∨ c = 'E'
    · have hdigits := Text.takeWhile_isDigit_lower (s :: ds)
      have hrest := Text.dropWhile_isDigit_lower (s :: ds)
      rw [Text.lower_cons] at hdigits hrest
      by_cases hs : s = '+' ∨ s = '-'
      · have hsame : s.toLower = s := by rcases hs with rfl | rfl <;> rfl
        simp [read?, hc, hs, hsame, Text.takeWhile_isDigit_lower, Text.dropWhile_isDigit_lower,
          lower]
      · simp [read?, hc, hs, Text.toLower_eq_sign_iff, hdigits, hrest, lower]
    · simp [read?, hc]

namespace Numeral

theorem fraction?_lower (cs : List Char) :
    fraction? (Text.lower cs) = (fraction? cs).map id Text.lower := by
  match cs with
  | [] => rfl
  | [c] => simp [fraction?]
  | c :: d :: ds =>
    by_cases hc : c = '.'
    · subst hc
      by_cases hd : d.isDigit
      · simp [fraction?, hd, Text.takeWhile_isDigit_lower, Text.dropWhile_isDigit_lower,
          Text.toLower_of_isDigit hd]
      · simp [fraction?, hd]
    · simp [fraction?, hc, Text.toLower_eq_iff]

def lower (n : Numeral) : Numeral := { n with exponent := n.exponent.map Exponent.lower }

theorem text_lower {n : Numeral} (h : n.WellFormed) : n.lower.text = Text.lower n.text := by
  have hfraction : Text.lower (fractionText n.fraction) = fractionText n.fraction := by
    unfold fractionText
    split
    · rfl
    · rw [Text.lower_cons, Text.lower_of_digits h.fraction]
      rfl
  rw [text, text, Text.lower_append, Text.lower_append, Text.lower_of_digits h.whole, hfraction]
  cases hexponent : n.exponent with
  | none => simp [lower, hexponent]
  | some e => simp [lower, hexponent, Exponent.text_lower (h.exponent e hexponent)]

theorem read_lower (cs : List Char) : read (Text.lower cs) = (read cs).map lower Text.lower := by
  have hfraction := fraction?_lower (cs.dropWhile Char.isDigit)
  have hexponent := Exponent.read?_lower (fraction? (cs.dropWhile Char.isDigit)).2
  rw [read, Text.takeWhile_isDigit_lower, Text.dropWhile_isDigit_lower, hfraction, read]
  simp only [Prod.map_snd, hexponent]
  cases Exponent.read? (fraction? (cs.dropWhile Char.isDigit)).2 <;> rfl

theorem literal_lower (n : Numeral) : n.lower.literal = n.literal := by
  obtain ⟨whole, fraction, exponent⟩ := n
  cases exponent <;> rfl

end Numeral

end SqlScan
