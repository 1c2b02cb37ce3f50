import Mathlib.Data.List.Basic

/-!
# `RainMakerNeo.Lib.Json`: which texts are JSON

The grammar of RFC 8259, as a relation between a text and its value. `Json.Derives` has one rule for
each production, and `Json.IsText` is a whole text.

`Quote.scan` is a way to refuse a text. It only follows the quotes, and it gives up at a control
character inside a string. `Derives.scan` says that it never gives up on a text of the grammar.
-/

set_option autoImplicit false

namespace RainMakerNeo.Lib

/-- A JSON value. A number is its text. -/
inductive Json
  | null
  | bool (b : Bool)
  | number (text : List Char)
  | string (s : List Char)
  | array (elements : List Json)
  | object (members : List (List Char × Json))

namespace Json

/-! ### Characters -/

/-- White space. -/
def IsWs (t : List Char) : Prop := ∀ c ∈ t, c = ' ' ∨ c = '\t' ∨ c = '\n' ∨ c = '\r'

/-- A run of digits. -/
def IsDigits (t : List Char) : Prop := ∀ c ∈ t, c.isDigit = true

/-- A whole number without leading zeros. -/
inductive IntText : List Char → Prop
  | zero : IntText ['0']
  | pos {c : Char} {t : List Char} (hc : c.isDigit = true) (hne : c ≠ '0') (ht : IsDigits t) :
      IntText (c :: t)

/-- The part behind the point. -/
inductive FracText : List Char → Prop
  | none : FracText []
  | some {t : List Char} (hne : t ≠ []) (ht : IsDigits t) : FracText ('.' :: t)

/-- The exponent. -/
inductive ExpText : List Char → Prop
  | none : ExpText []
  | some {e : Char} {sign t : List Char} (he : e = 'e' ∨ e = 'E')
      (hsign : sign = [] ∨ sign = ['+'] ∨ sign = ['-']) (hne : t ≠ []) (ht : IsDigits t) :
      ExpText (e :: (sign ++ t))

/-- A number. -/
inductive NumberText : List Char → Prop
  | mk {sign int frac exp : List Char} (hsign : sign = [] ∨ sign = ['-']) (hint : IntText int)
      (hfrac : FracText frac) (hexp : ExpText exp) : NumberText (sign ++ (int ++ (frac ++ exp)))

/-- What a character behind a backslash stands for. -/
def simpleEscape : Char → Option Char
  | '"' => some '"'
  | '\\' => some '\\'
  | '/' => some '/'
  | 'b' => some (Char.ofNat 8)
  | 'f' => some (Char.ofNat 12)
  | 'n' => some '\n'
  | 'r' => some '\r'
  | 't' => some '\t'
  | _ => none

/-- A hexadecimal digit. -/
def hexDigit (c : Char) : Option Nat :=
  if c.isDigit then some (c.toNat - '0'.toNat)
  else if 'a' ≤ c ∧ c ≤ 'f' then some (c.toNat - 'a'.toNat + 10)
  else if 'A' ≤ c ∧ c ≤ 'F' then some (c.toNat - 'A'.toNat + 10)
  else none

/-- The number of four hexadecimal digits. -/
def hex4 (t : List Char) : Option Nat :=
  if t.length = 4 then t.foldl (fun n c => n.bind fun n => (hexDigit c).map (16 * n + ·)) (some 0)
  else none

/-- The text between two quotes, and the string that it stands for. -/
inductive Chars : List Char → List Char → Prop
  | nil : Chars [] []
  | plain {c : Char} {t s : List Char} (hctrl : 0x20 ≤ c.toNat) (hquote : c ≠ '"')
      (hback : c ≠ '\\') (h : Chars t s) : Chars (c :: t) (c :: s)
  | escape {e c : Char} {t s : List Char} (he : simpleEscape e = some c) (h : Chars t s) :
      Chars ('\\' :: e :: t) (c :: s)
  /-- A code point. -/
  | unicode {u t s : List Char} {n : Nat} (hu : hex4 u = some n)
      (hn : n < 0xD800 ∨ 0xDFFF < n) (h : Chars t s) :
      Chars ('\\' :: 'u' :: (u ++ t)) (Char.ofNat n :: s)
  /-- A code point as two surrogates. -/
  | surrogates {u v t s : List Char} {n m : Nat} (hu : hex4 u = some n) (hv : hex4 v = some m)
      (hn : 0xD800 ≤ n ∧ n ≤ 0xDBFF) (hm : 0xDC00 ≤ m ∧ m ≤ 0xDFFF) (h : Chars t s) :
      Chars ('\\' :: 'u' :: (u ++ '\\' :: 'u' :: (v ++ t)))
        (Char.ofNat (0x10000 + (n - 0xD800) * 0x400 + (m - 0xDC00)) :: s)

/-! ### Texts -/

/-- What a part of a text is. -/
inductive Piece
  | value (v : Json)
  /-- A value with white space around it. -/
  | element (v : Json)
  | elements (vs : List Json)
  | member (key : List Char) (v : Json)
  | members (ms : List (List Char × Json))

/-- The grammar. -/
inductive Derives : Piece → List Char → Prop
  | null : Derives (.value .null) ['n', 'u', 'l', 'l']
  | true : Derives (.value (.bool true)) ['t', 'r', 'u', 'e']
  | false : Derives (.value (.bool false)) ['f', 'a', 'l', 's', 'e']
  | number {t : List Char} (h : NumberText t) : Derives (.value (.number t)) t
  | string {t s : List Char} (h : Chars t s) :
      Derives (.value (.string s)) ('"' :: (t ++ ['"']))
  | emptyArray {w : List Char} (hw : IsWs w) : Derives (.value (.array [])) ('[' :: (w ++ [']']))
  | array {t : List Char} {vs : List Json} (h : Derives (.elements vs) t) :
      Derives (.value (.array vs)) ('[' :: (t ++ [']']))
  | emptyObject {w : List Char} (hw : IsWs w) :
      Derives (.value (.object [])) ('\x7b' :: (w ++ ['\x7d']))
  | object {t : List Char} {ms : List (List Char × Json)} (h : Derives (.members ms) t) :
      Derives (.value (.object ms)) ('\x7b' :: (t ++ ['\x7d']))
  | element {v : Json} {w w' t : List Char} (hw : IsWs w) (hw' : IsWs w')
      (h : Derives (.value v) t) : Derives (.element v) (w ++ (t ++ w'))
  | lastElement {v : Json} {t : List Char} (h : Derives (.element v) t) :
      Derives (.elements [v]) t
  | moreElements {v : Json} {vs : List Json} {t t' : List Char} (h : Derives (.element v) t)
      (h' : Derives (.elements vs) t') : Derives (.elements (v :: vs)) (t ++ ',' :: t')
  | member {v : Json} {key k w w' t : List Char} (hw : IsWs w) (hw' : IsWs w') (hk : Chars k key)
      (h : Derives (.element v) t) :
      Derives (.member key v) (w ++ '"' :: (k ++ '"' :: (w' ++ ':' :: t)))
  | lastMember {key t : List Char} {v : Json} (h : Derives (.member key v) t) :
      Derives (.members [(key, v)]) t
  | moreMembers {key t t' : List Char} {v : Json} {ms : List (List Char × Json)}
      (h : Derives (.member key v) t) (h' : Derives (.members ms) t') :
      Derives (.members ((key, v) :: ms)) (t ++ ',' :: t')

/-- A JSON text and its value. -/
def IsText (t : List Char) (v : Json) : Prop := Derives (.element v) t

/-- The members of an object with this name. -/
def get : Json → List Char → List Json
  | .object members, key => (members.filter fun m => m.1 = key).map Prod.snd
  | _, _ => []

/-! ### Following the quotes -/

/-- Where a text is: outside of strings, in one, behind a backslash, or at a control character that
may not stand in a string. -/
inductive Quote
  | outside | inside | escaped | bad
  deriving DecidableEq, Repr

/-- The next character. -/
def Quote.next : Quote → Char → Quote
  | .outside, c => if c = '"' then .inside else .outside
  | .inside, c =>
    if c = '"' then .outside
    else if c = '\\' then .escaped
    else if c.toNat < 0x20 then .bad
    else .inside
  | .escaped, c => if c.toNat < 0x20 then .bad else .inside
  | .bad, _ => .bad

/-- The whole text. -/
def Quote.scan (q : Quote) (t : List Char) : Quote := t.foldl Quote.next q

@[simp] theorem Quote.scan_nil (q : Quote) : q.scan [] = q := rfl

@[simp] theorem Quote.scan_cons (q : Quote) (c : Char) (t : List Char) :
    q.scan (c :: t) = (q.next c).scan t := rfl

@[simp] theorem Quote.scan_append (q : Quote) (t t' : List Char) :
    q.scan (t ++ t') = (q.scan t).scan t' := List.foldl_append

/-- What is bad stays so. -/
@[simp] theorem Quote.scan_bad (t : List Char) : Quote.bad.scan t = .bad := by
  induction t with
  | nil => rfl
  | cons c t ih => exact ih

variable {t : List Char} {c : Char}

/-- A text without quotes stays outside. -/
theorem Quote.scan_outside (h : '"' ∉ t) : Quote.outside.scan t = .outside := by
  induction t with
  | nil => rfl
  | cons c t ih =>
    rw [Quote.scan_cons, Quote.next, if_neg fun hc => h (by simp [hc])]
    exact ih fun ht => h (by simp [ht])

/-- A character that may stand in a string as it is. -/
def IsPlain (c : Char) : Prop := 0x20 ≤ c.toNat ∧ c ≠ '"' ∧ c ≠ '\\'

theorem Quote.next_inside (h : IsPlain c) : Quote.inside.next c = .inside := by
  have hctrl := h.1
  rw [Quote.next, if_neg h.2.1, if_neg h.2.2, if_neg (by omega)]

/-- Plain characters stay in the string. -/
theorem Quote.scan_inside (h : ∀ c ∈ t, IsPlain c) : Quote.inside.scan t = .inside := by
  induction t with
  | nil => rfl
  | cons c t ih =>
    rw [Quote.scan_cons, Quote.next_inside (h c (by simp))]
    exact ih fun d hd => h d (by simp [hd])

/-- Plain characters stand for themselves. -/
theorem chars_of_plain (h : ∀ c ∈ t, IsPlain c) : Chars t t := by
  induction t with
  | nil => exact .nil
  | cons c t ih =>
    have hc := h c (by simp)
    exact .plain hc.1 hc.2.1 hc.2.2 (ih fun d hd => h d (by simp [hd]))

/-! ### The grammar closes its quotes -/

/-- A digit or a letter is plain. -/
theorem isPlain_of_alnum
    (h : 48 ≤ c.toNat ∧ c.toNat ≤ 57 ∨ 65 ≤ c.toNat ∧ c.toNat ≤ 90 ∨ 97 ≤ c.toNat ∧ c.toNat ≤ 122) :
    IsPlain c := by
  refine ⟨by omega, ?_, ?_⟩
  · rintro rfl
    exact absurd h (by decide)
  · rintro rfl
    exact absurd h (by decide)

theorem isPlain_of_isDigit (h : c.isDigit = true) : IsPlain c :=
  isPlain_of_alnum (.inl (Char.isDigit_iff_toNat.mp h))

/-- A hexadecimal digit is plain. -/
theorem isPlain_of_hexDigit (h : hexDigit c ≠ none) : IsPlain c := by
  rw [hexDigit] at h
  by_cases hdigit : c.isDigit = true
  · exact isPlain_of_isDigit hdigit
  rw [if_neg hdigit] at h
  by_cases hlower : 'a' ≤ c ∧ c ≤ 'f'
  · have hle : 97 ≤ c.toNat ∧ c.toNat ≤ 102 := hlower
    exact isPlain_of_alnum (.inr (.inr ⟨hle.1, by omega⟩))
  rw [if_neg hlower] at h
  by_cases hupper : 'A' ≤ c ∧ c ≤ 'F'
  · have hle : 65 ≤ c.toNat ∧ c.toNat ≤ 70 := hupper
    exact isPlain_of_alnum (.inr (.inl ⟨hle.1, by omega⟩))
  · exact absurd (if_neg hupper) h

/-- The digits of a number are hexadecimal digits. -/
theorem hexDigit_of_hex4 {n : Nat} (h : hex4 t = some n) : ∀ c ∈ t, hexDigit c ≠ none := by
  rw [hex4] at h
  by_cases hlen : t.length = 4
  · rw [if_pos hlen] at h
    match t, hlen with
    | [a, b, c, d], _ =>
      intro x hx hnone
      simp only [List.mem_cons, List.not_mem_nil, or_false] at hx
      rcases hx with rfl | rfl | rfl | rfl <;>
        simp [hnone] at h
  · rw [if_neg hlen] at h
    exact absurd h (by nofun)

theorem scan_hex4 {n : Nat} (h : hex4 t = some n) : Quote.inside.scan t = .inside :=
  Quote.scan_inside fun c hc => isPlain_of_hexDigit (hexDigit_of_hex4 h c hc)

/-- The text of a string stays in it. -/
theorem Chars.scan {s : List Char} (h : Chars t s) : Quote.inside.scan t = .inside := by
  induction h with
  | nil => rfl
  | plain hctrl hquote hback _ ih =>
    rw [Quote.scan_cons, Quote.next_inside ⟨hctrl, hquote, hback⟩]
    exact ih
  | @escape e c t s he _ ih =>
    have hctrl : ¬ e.toNat < 0x20 := by
      intro hctrl
      rw [simpleEscape.eq_9] at he
      · exact absurd he (by nofun)
      all_goals
        rintro rfl
        exact absurd hctrl (by decide)
    show (Quote.escaped.next e).scan t = _
    rw [Quote.next, if_neg hctrl]
    exact ih
  | @unicode u t s n hu _ _ ih =>
    show Quote.inside.scan (u ++ t) = _
    rw [Quote.scan_append, scan_hex4 hu]
    exact ih
  | @surrogates u v t s n m hu hv _ _ _ ih =>
    show Quote.inside.scan (u ++ '\\' :: 'u' :: (v ++ t)) = _
    rw [Quote.scan_append, scan_hex4 hu]
    show Quote.inside.scan (v ++ t) = _
    rw [Quote.scan_append, scan_hex4 hv]
    exact ih

/-- White space has no quotes. -/
theorem IsWs.scan {w : List Char} (h : IsWs w) : Quote.outside.scan w = .outside := by
  refine Quote.scan_outside fun hmem => ?_
  exact absurd (h _ hmem) (by decide)

/-- Digits have no quotes. -/
theorem IsDigits.not_mem (h : IsDigits t) : '"' ∉ t := by
  intro hmem
  exact absurd (h _ hmem) (by decide)

/-- A number has no quotes. -/
theorem NumberText.not_mem (h : NumberText t) : '"' ∉ t := by
  obtain ⟨hsign, hint, hfrac, hexp⟩ := h
  simp only [List.mem_append, not_or]
  refine ⟨?_, ?_, ?_, ?_⟩
  · rcases hsign with rfl | rfl
    · simp
    · simp
  · cases hint with
    | zero => simp
    | pos hc _ ht =>
      intro hmem
      rcases List.mem_cons.mp hmem with rfl | hmem
      · exact absurd hc (by decide)
      · exact ht.not_mem hmem
  · cases hfrac with
    | none => simp
    | some _ ht => simpa using ht.not_mem
  · cases hexp with
    | none => simp
    | some he hsign _ ht =>
      intro hmem
      rcases List.mem_cons.mp hmem with rfl | hmem
      · exact absurd he (by decide)
      rcases List.mem_append.mp hmem with hmem | hmem
      · rcases hsign with rfl | rfl | rfl <;> simp at hmem
      · exact ht.not_mem hmem

/-- A text of the grammar closes its quotes and has no control character in a string. -/
theorem Derives.scan {p : Piece} (h : Derives p t) : Quote.outside.scan t = .outside := by
  induction h with
  | null => rfl
  | true => rfl
  | false => rfl
  | number h => exact Quote.scan_outside h.not_mem
  | @string t v h =>
    show Quote.inside.scan (t ++ ['"']) = _
    rw [Quote.scan_append, h.scan]
    rfl
  | @emptyArray w hw =>
    show Quote.outside.scan (w ++ [']']) = _
    rw [Quote.scan_append, hw.scan]
    rfl
  | @array t vs _ ih =>
    show Quote.outside.scan (t ++ [']']) = _
    rw [Quote.scan_append, ih]
    rfl
  | @emptyObject w hw =>
    show Quote.outside.scan (w ++ ['\x7d']) = _
    rw [Quote.scan_append, hw.scan]
    rfl
  | @object t ms _ ih =>
    show Quote.outside.scan (t ++ ['\x7d']) = _
    rw [Quote.scan_append, ih]
    rfl
  | element hw hw' _ ih => rw [Quote.scan_append, Quote.scan_append, hw.scan, ih, hw'.scan]
  | lastElement _ ih => exact ih
  | moreElements _ _ ih ih' =>
    rw [Quote.scan_append, ih]
    exact ih'
  | @member v key k w w' t hw hw' hk _ ih =>
    rw [Quote.scan_append, hw.scan]
    show Quote.inside.scan (k ++ '"' :: (w' ++ ':' :: t)) = _
    rw [Quote.scan_append, hk.scan]
    show Quote.outside.scan (w' ++ ':' :: t) = _
    rw [Quote.scan_append, hw'.scan]
    exact ih
  | lastMember _ ih => exact ih
  | moreMembers _ _ ih ih' =>
    rw [Quote.scan_append, ih]
    exact ih'

/-! ### Numbers -/

/-- A natural number is printed without leading zeros. -/
theorem intText_toDigits (n : Nat) : IntText (Nat.toDigits 10 n) := by
  induction n using Nat.strongRecOn with
  | ind n ih =>
    by_cases hn : n < 10
    · rw [Nat.toDigits_of_lt_base hn]
      have hdigit : ∀ d < 10, (Nat.digitChar d).isDigit = true := by decide
      have hzero : ∀ d < 10, d ≠ 0 → Nat.digitChar d ≠ '0' := by decide
      by_cases h0 : n = 0
      · subst h0
        exact .zero
      · exact .pos (hdigit n hn) (hzero n hn h0) fun c hc => absurd hc List.not_mem_nil
    · -- The last digit goes behind those of the rest.
      have hsplit : Nat.toDigits 10 n = Nat.toDigits 10 (n / 10) ++ Nat.toDigits 10 (n % 10) := by
        rw [Nat.toDigits_append_toDigits (by decide) (by omega) (by omega), Nat.div_add_mod]
      have hlast : IsDigits (Nat.toDigits 10 (n % 10)) := fun c hc =>
        Nat.isDigit_of_mem_toDigits (by decide) (by decide) hc
      have hrest := ih (n / 10) (by omega)
      have hpos : Nat.toDigits 10 (n / 10) ≠ ['0'] := by
        intro hzero
        have hval := congrArg (fun t => Nat.ofDigitChars 10 t 0) hzero
        simp only [Nat.ofDigitChars_ten_toDigits] at hval
        have : Nat.ofDigitChars 10 ['0'] 0 = 0 := by decide
        omega
      rw [hsplit]
      generalize Nat.toDigits 10 (n / 10) = t at hrest hpos
      cases hrest with
      | zero => exact absurd rfl hpos
      | pos hc hne ht =>
        refine .pos hc hne fun c hmem => ?_
        rcases List.mem_append.mp hmem with hmem | hmem
        · exact ht c hmem
        · exact hlast c hmem

/-- A natural number is a JSON number. -/
theorem numberText_toDigits (n : Nat) : NumberText (Nat.toDigits 10 n) := by
  have h : NumberText ([] ++ (Nat.toDigits 10 n ++ ([] ++ []))) :=
    .mk (.inl rfl) (intText_toDigits n) .none .none
  simpa using h

end Json

end RainMakerNeo.Lib
