import Mathlib.Algebra.Group.Nat.Defs
import RainMakerNeo.Lib.Memory

/-!
# `RainMakerNeo.Common.HexCodec`: bytes and their hexadecimal text

The encoder prints each byte with `%.2x`. The decoder scans with `%2x`, after one `%1x` if the
length is odd. `scanHex` is what the C libraries of the chips and of Linux do for these: blanks are
skipped and do not count, a sign counts, and fewer digits than the width are enough.

The decoder moves on by the width, so its scans start at fixed places (`scanned`), and it fails
exactly if one that lies inside the string finds no number (`convertHexToBytes_fails_iff`). A text
of digits is decoded as it should (`convertHexToBytes_digits`), and so is what the encoder writes.

A block ends behind its string, and the scan of a string that has no NUL is undefined (`none`).
-/

set_option autoImplicit false

namespace RainMakerNeo.Common

open RainMakerNeo.Lib

/-! ### The conversions of the C library -/

def minus : UInt8 := 45
def plus : UInt8 := 43
def zeroDigit : UInt8 := 48

/-- `isspace` -/
def isSpace (c : UInt8) : Bool := c = 32 ∨ (9 ≤ c ∧ c ≤ 13)

/-- The value of a hexadecimal digit. -/
def hexVal (c : UInt8) : Option Nat :=
  if 48 ≤ c ∧ c ≤ 57 then some (c.toNat - 48)
  else if 65 ≤ c ∧ c ≤ 70 then some (c.toNat - 55)
  else if 97 ≤ c ∧ c ≤ 102 then some (c.toNat - 87)
  else none

/-- `isxdigit` -/
def isHexDigit (c : UInt8) : Bool := (hexVal c).isSome

/-- The values of the digits that a text starts with. -/
def leadingDigits : List UInt8 → List Nat
  | [] => []
  | c :: s =>
    match hexVal c with
    | some d => d :: leadingDigits s
    | none => []

/-- A number without a sign. A text without a digit is none. -/
def numeral (s : List UInt8) : Option UInt32 :=
  match leadingDigits s with
  | [] => none
  | ds => some (.ofNat (ds.foldl (16 * · + ·) 0))

/-- A number behind its sign. The prefix `0x` may be all of it, and then it is zero. -/
def unsignedNumeral : List UInt8 → Option UInt32
  | c :: x :: s =>
    if c = zeroDigit ∧ (x = 120 ∨ x = 88) then numeral (c :: s) else numeral (c :: x :: s)
  | s => numeral s

/-- `sscanf` of a string with `%1x` or `%2x`, for any width that a number does not outgrow. -/
def scanHex (width : Nat) : List UInt8 → Option UInt32
  | [] => none
  | c :: s =>
    -- a sign counts for the width, and a minus negates modulo `2 ^ 32`
    if isSpace c then scanHex width s
    else if c = minus then (unsignedNumeral (s.take (width - 1))).map (- ·)
    else if c = plus then unsignedNumeral (s.take (width - 1))
    else unsignedNumeral ((c :: s).take width)

/-- `sscanf` at a place of a block. It looks for the end of the string first. -/
def sscanfHex (width : Nat) (m : List UInt8) (ptr : Nat) : Option (Option UInt32) := do
  let n ← strlen m ptr
  let s ← copyFrom m ptr n
  return scanHex width s

/-- A digit of `%.2x`. -/
def hexDigit (d : Nat) : UInt8 := if d < 10 then .ofNat (48 + d) else .ofNat (87 + d)

/-! ### The code -/

/-- What the two functions return. -/
inductive HexErr
  | ok | invalidArg
  deriving DecidableEq, Repr

/-- The loop of `esp_rmaker_convert_bytes_to_hex`. `snprintf` ends each byte with a NUL. -/
def hexLoop : List UInt8 → Nat → List UInt8 → Option (List UInt8)
  | [], _, hexStr => some hexStr
  | b :: bytes, i, hexStr => do
    let hexStr ← poke hexStr (i * 2) (hexDigit (b.toNat / 16))
    let hexStr ← poke hexStr (i * 2 + 1) (hexDigit (b.toNat % 16))
    let hexStr ← poke hexStr (i * 2 + 2) 0
    hexLoop bytes (i + 1) hexStr

/-- `esp_rmaker_convert_bytes_to_hex` with a `size_t` of `sizeBits` bits: the result and the string.
The destination has `hex_str_size` cells, and no pointer is NULL. -/
def convertBytesToHex (sizeBits : Nat) (bytes hexStr : List UInt8) :
    Option (HexErr × List UInt8) :=
  if hexStr.length < (bytes.length * 2 + 1) % 2 ^ sizeBits then some (.invalidArg, hexStr)
  else do
    let hexStr ← hexLoop bytes 0 hexStr
    let hexStr ← poke hexStr (bytes.length * 2) 0
    return (.ok, hexStr)

/-- The loop of `esp_rmaker_convert_hex_to_bytes`, with the bytes that are left to write. -/
def pairLoop (hexStr : List UInt8) :
    Nat → Nat → Nat → List UInt8 → Option (HexErr × List UInt8)
  | 0, _, _, bytes => some (.ok, bytes)
  | left + 1, ptr, bytesWritten, bytes => do
    match ← sscanfHex 2 hexStr ptr with
    | none => return (.invalidArg, bytes)
    -- the pointer moves on by two, however many characters the scan took
    | some val =>
      let bytes ← poke bytes bytesWritten val.toUInt8
      pairLoop hexStr left (ptr + 2) (bytesWritten + 1) bytes

/-- `esp_rmaker_convert_hex_to_bytes`: the result and the buffer, which has `bytes_len` cells. -/
def convertHexToBytes (sizeBits : Nat) (hexStr : List UInt8) (hexStrLen : Nat)
    (bytes : List UInt8) : Option (HexErr × List UInt8) :=
  let outLen := (hexStrLen + 1) % 2 ^ sizeBits / 2
  if bytes.length < outLen then some (.invalidArg, bytes)
  else if hexStrLen % 2 ≠ 0 then do
    -- the first digit of an odd number of them is scanned alone
    match ← sscanfHex 1 hexStr 0 with
    | none => return (.invalidArg, bytes)
    | some val =>
      let bytes ← poke bytes 0 val.toUInt8
      pairLoop hexStr (outLen - 1) 1 1 bytes
  else pairLoop hexStr outLen 0 0 bytes

/-! ### What the text of the digits stands for -/

/-- The bytes of digits, two for each. -/
def decodePairs : List UInt8 → List UInt8
  | a :: b :: digits =>
    .ofNat (16 * (hexVal a).getD 0 + (hexVal b).getD 0) :: decodePairs digits
  | _ => []

/-- The bytes of digits. The first digit of an odd number of them is a byte of its own. -/
def decodeHex (digits : List UInt8) : List UInt8 :=
  if digits.length % 2 ≠ 0 then decodePairs (zeroDigit :: digits) else decodePairs digits

/-- The digits of bytes. -/
def hexText (bytes : List UInt8) : List UInt8 :=
  bytes.flatMap fun b => [hexDigit (b.toNat / 16), hexDigit (b.toNat % 16)]

@[simp] theorem length_hexText (bytes : List UInt8) :
    (hexText bytes).length = bytes.length * 2 := by
  simp [hexText]

theorem hexVal_hexDigit {d : Nat} (h : d < 16) : hexVal (hexDigit d) = some d := by
  have hall : ∀ d < 16, hexVal (hexDigit d) = some d := by decide
  exact hall d h

theorem isHexDigit_hexText (bytes : List UInt8) : ∀ c ∈ hexText bytes, isHexDigit c := by
  intro c hc
  simp only [hexText, List.mem_flatMap, List.mem_cons, List.not_mem_nil, or_false] at hc
  obtain ⟨b, -, rfl | rfl⟩ := hc
  · simp [isHexDigit, hexVal_hexDigit (show b.toNat / 16 < 16 by have := b.toNat_lt; omega)]
  · simp [isHexDigit, hexVal_hexDigit (show b.toNat % 16 < 16 by omega)]

/-- The digits of bytes stand for them. -/
theorem decodeHex_hexText (bytes : List UInt8) : decodeHex (hexText bytes) = bytes := by
  have hpairs : decodePairs (hexText bytes) = bytes := by
    induction bytes with
    | nil => rfl
    | cons b bytes ih =>
      have hb := b.toNat_lt
      have hhigh := hexVal_hexDigit (show b.toNat / 16 < 16 by omega)
      have hlow := hexVal_hexDigit (show b.toNat % 16 < 16 by omega)
      have hsum : 16 * (b.toNat / 16) + b.toNat % 16 = b.toNat := by omega
      have hcons : hexText (b :: bytes)
          = hexDigit (b.toNat / 16) :: hexDigit (b.toNat % 16) :: hexText bytes := rfl
      rw [hcons, decodePairs, hhigh, hlow, Option.getD_some, Option.getD_some, hsum, ih]
      simp
  rw [decodeHex, length_hexText, if_neg (by omega), hpairs]

/-! ### One scan -/

/-- What a scan takes for a number: behind blanks, a digit or a sign in front of one. -/
def startsNumber (width : Nat) : List UInt8 → Bool
  | [] => false
  | c :: s =>
    if isSpace c then startsNumber width s
    else isHexDigit c ||
      (1 < width && (c = minus || c = plus) && (s.head?.map isHexDigit).getD false)

theorem isSome_numeral (s : List UInt8) :
    (numeral s).isSome = (s.head?.map isHexDigit).getD false := by
  cases s with
  | nil => rfl
  | cons c s =>
    rw [numeral, leadingDigits]
    cases hc : hexVal c <;> simp [isHexDigit, hc]

theorem isSome_unsignedNumeral (s : List UInt8) :
    (unsignedNumeral s).isSome = (s.head?.map isHexDigit).getD false := by
  match s with
  | [] => rfl
  | [c] => exact isSome_numeral [c]
  | c :: x :: s =>
    rw [unsignedNumeral]
    split
    · exact isSome_numeral (c :: s)
    · exact isSome_numeral (c :: x :: s)

/-- A scan takes exactly what starts a number. -/
theorem isSome_scanHex {width : Nat} (hwidth : 0 < width) (s : List UInt8) :
    (scanHex width s).isSome = startsNumber width s := by
  induction s with
  | nil => rfl
  | cons c s ih =>
    rw [scanHex, startsNumber]
    by_cases hspace : isSpace c
    · rw [if_pos hspace, if_pos hspace, ih]
    rw [if_neg hspace, if_neg hspace]
    have hhead : ((s.take (width - 1)).head?.map isHexDigit).getD false
        = (decide (1 < width) && (s.head?.map isHexDigit).getD false) := by
      by_cases hsign : 1 < width
      · cases s with
        | nil => simp
        | cons d s =>
          obtain ⟨k, hk⟩ : ∃ k, width - 1 = k + 1 := ⟨width - 2, by omega⟩
          simp [hk, hsign]
      · have hone : width - 1 = 0 := by omega
        simp [hone, hsign]
    by_cases hminus : c = minus
    · subst hminus
      have hdigit : isHexDigit minus = false := rfl
      simp [isSome_unsignedNumeral, hhead, hdigit]
    · by_cases hplus : c = plus
      · subst hplus
        have hdigit : isHexDigit plus = false := rfl
        simp [hminus, isSome_unsignedNumeral, hhead, hdigit]
      · obtain ⟨k, rfl⟩ : ∃ k, width = k + 1 := ⟨width - 1, by omega⟩
        simp [hminus, hplus, isSome_unsignedNumeral]

/-- The end of the string does not start a number. -/
theorem startsNumber_takeWhile (width : Nat) (s : List UInt8) :
    startsNumber width (s.takeWhile (· ≠ 0)) = startsNumber width s := by
  induction s with
  | nil => rfl
  | cons c s ih =>
    by_cases hc : c = 0
    · subst hc
      have hspace : isSpace 0 = false := rfl
      have hdigit : isHexDigit 0 = false := rfl
      simp [startsNumber, hspace, hdigit, minus, plus]
    · have hhead : ((s.takeWhile (· ≠ 0)).head?.map isHexDigit).getD false
          = (s.head?.map isHexDigit).getD false := by
        cases s with
        | nil => rfl
        | cons d s =>
          by_cases hd : d = 0
          · subst hd
            rfl
          · simp [hd]
      rw [List.takeWhile_cons_of_pos (by simpa using hc), startsNumber, startsNumber, ih, hhead]

variable {m : List UInt8} {sizeBits : Nat}

theorem sscanfHex_eq {width ptr : Nat} (h : 0 ∈ m.drop ptr) :
    sscanfHex width m ptr = some (scanHex width ((m.drop ptr).takeWhile (· ≠ 0))) := by
  have htake := List.prefix_iff_eq_take.mp
    (List.takeWhile_prefix (fun c : UInt8 => decide (c ≠ 0)) (l := m.drop ptr))
  have hle := (List.takeWhile_sublist (fun c : UInt8 => decide (c ≠ 0)) (l := m.drop ptr)).length_le
  have hpos : 0 < (m.drop ptr).length := List.length_pos_of_mem h
  rw [List.length_drop] at hle hpos
  rw [sscanfHex, strlen, if_pos h, Option.bind_eq_bind, Option.bind_some, copyFrom,
    if_pos (by omega), ← htake]
  rfl

/-- A scan in a string that is all of its block fails at the places where no number starts. -/
theorem sscanfHex_eq_none_iff {width : Nat} (hwidth : 0 < width) (text : List UInt8) (ptr : Nat) :
    sscanfHex width (text ++ [0]) ptr = some none ↔
      ptr ≤ text.length ∧ ¬ startsNumber width (text.drop ptr) := by
  by_cases hptr : ptr ≤ text.length
  · have hdrop : (text ++ [0]).drop ptr = text.drop ptr ++ [0] := List.drop_append_of_le_length hptr
    have hstarts := startsNumber_takeWhile width (text.drop ptr ++ [0])
    have hend : startsNumber width (text.drop ptr ++ [0]) = startsNumber width (text.drop ptr) := by
      have htext := startsNumber_takeWhile width (text.drop ptr)
      have hnul : ∀ s : List UInt8, (s ++ [0]).takeWhile (· ≠ 0) = s.takeWhile (· ≠ 0) := by
        intro s
        induction s with
        | nil => rfl
        | cons c s ih =>
          by_cases hc : c = 0
          · simp [hc]
          · simpa [hc] using ih
      rw [← htext, ← hstarts, hnul]
    rw [sscanfHex_eq (by simp [hdrop]), hdrop]
    rw [hend, ← isSome_scanHex hwidth] at hstarts
    simp [hptr, ← hstarts]
  · have hdrop : (text ++ [0]).drop ptr = [] := List.drop_eq_nil_of_le (by simp; omega)
    simp [sscanfHex, strlen, hdrop, hptr]

/-- A digit is neither a blank nor a sign nor the letter of the prefix nor a NUL. -/
theorem not_special {c : UInt8} (h : isHexDigit c) :
    isSpace c = false ∧ c ≠ 0 ∧ c ≠ minus ∧ c ≠ plus ∧ c ≠ 120 ∧ c ≠ 88 := by
  have hall : ∀ k < 256, isHexDigit (.ofNat k) → isSpace (.ofNat k) = false ∧
      UInt8.ofNat k ≠ 0 ∧ UInt8.ofNat k ≠ minus ∧ UInt8.ofNat k ≠ plus ∧ UInt8.ofNat k ≠ 120 ∧
      UInt8.ofNat k ≠ 88 := by
    decide +kernel
  have hc := hall c.toNat c.toNat_lt
  rw [UInt8.ofNat_toNat] at hc
  exact hc h

/-- Two digits at a place. -/
theorem sscanfHex_two {p q : List UInt8} {a b : UInt8} {s : Nat} (ha : isHexDigit a)
    (hb : isHexDigit b) (hafter : 0 ∈ q) (hptr : s = p.length) :
    sscanfHex 2 (p ++ a :: b :: q) s
      = some (some (.ofNat (16 * (hexVal a).getD 0 + (hexVal b).getD 0))) := by
  obtain ⟨haspace, hanul, haminus, haplus, -, -⟩ := not_special ha
  obtain ⟨-, hbnul, -, -, hbx, hbX⟩ := not_special hb
  obtain ⟨d, hd⟩ := Option.isSome_iff_exists.mp ha
  obtain ⟨e, he⟩ := Option.isSome_iff_exists.mp hb
  have hdrop : (p ++ a :: b :: q).drop s = a :: b :: q := by simp [hptr]
  rw [sscanfHex_eq (by rw [hdrop]; simp [hafter]), hdrop]
  simp [hanul, hbnul, scanHex, haspace, haminus, haplus, unsignedNumeral, hbx, hbX, numeral,
    leadingDigits, hd, he]

/-- One digit at the front. -/
theorem sscanfHex_one {q : List UInt8} {a : UInt8} (ha : isHexDigit a) (hafter : 0 ∈ q) :
    sscanfHex 1 (a :: q) 0 = some (some (.ofNat ((hexVal a).getD 0))) := by
  obtain ⟨haspace, hanul, haminus, haplus, -, -⟩ := not_special ha
  obtain ⟨d, hd⟩ := Option.isSome_iff_exists.mp ha
  rw [sscanfHex_eq (by simp [hafter]), List.drop_zero]
  simp [hanul, scanHex, haspace, haminus, haplus, unsignedNumeral, numeral, leadingDigits, hd]

/-! ### The decoder -/

/-- A text of digits, two for each byte that is left. -/
theorem pairLoop_digits {p t q w z r : List UInt8} {s i : Nat}
    (hdigits : ∀ c ∈ t, isHexDigit c) (hafter : 0 ∈ q)
    (hlen : t.length = 2 * z.length) (hptr : s = p.length) (hi : i = w.length) :
    pairLoop (p ++ (t ++ q)) z.length s i (w ++ (z ++ r))
      = some (.ok, w ++ (decodePairs t ++ r)) := by
  -- each byte that is left consumes a pair of digits
  induction z generalizing p t w s i with
  | nil =>
    obtain rfl := List.eq_nil_of_length_eq_zero hlen
    rfl
  | cons h z ih =>
    obtain ⟨a, b, t, rfl⟩ : ∃ a b more, t = a :: b :: more := by
      match t with
      | [] => simp at hlen
      | [_] =>
        simp only [List.length_cons, List.length_nil] at hlen
        omega
      | a :: b :: more => exact ⟨a, b, more, rfl⟩
    have hscan := sscanfHex_two (p := p) (q := t ++ q)
      (hdigits a (by simp)) (hdigits b (by simp)) (by simp [hafter]) hptr
    generalize hval : 16 * (hexVal a).getD 0 + (hexVal b).getD 0 = val at hscan
    have hwrite : poke (w ++ h :: (z ++ r)) i (.ofNat val)
        = some (w ++ .ofNat val :: (z ++ r)) := poke_at h _ hi
    have hnext := ih (p := p ++ [a, b]) (t := t)
      (w := w ++ [.ofNat val]) (s := s + 2) (i := i + 1)
      (fun c hc => hdigits c (by simp [hc]))
      (by simp only [List.length_cons] at hlen; omega) (by simp [hptr]) (by simp [hi])
    simp only [List.append_assoc, List.cons_append, List.nil_append] at hnext
    simp only [List.length_cons, pairLoop, List.cons_append, hscan, Option.bind_eq_bind,
      Option.bind_some]
    rw [decodePairs, hval]
    simpa [hwrite] using hnext

/-- A text of digits is decoded, whatever the string goes on with. -/
theorem convertHexToBytes_digits {digits bytes q : List UInt8}
    (hdigits : ∀ c ∈ digits, isHexDigit c) (hsize : digits.length + 1 < 2 ^ sizeBits)
    (hfits : (digits.length + 1) / 2 ≤ bytes.length) (hq : 0 ∈ q) :
    convertHexToBytes sizeBits (digits ++ q) digits.length bytes
      = some (.ok, decodeHex digits ++ bytes.drop ((digits.length + 1) / 2)) := by
  -- the cells that are written, and those behind them
  obtain ⟨z, r, rfl, hhole⟩ := exists_front hfits
  have hroom : ¬ (z ++ r).length < z.length := by
    rw [List.length_append]
    omega
  rw [← hhole, List.drop_left, convertHexToBytes, decodeHex]
  simp only [Nat.mod_eq_of_lt hsize, ← hhole, if_neg hroom]
  by_cases hodd : digits.length % 2 ≠ 0
  · rw [if_pos hodd, if_pos hodd]
    obtain ⟨a, digits, rfl⟩ := List.exists_cons_of_length_pos (by omega : 0 < digits.length)
    obtain ⟨h, z, rfl⟩ := List.exists_cons_of_length_pos
      (by rw [hhole, List.length_cons]; omega : 0 < z.length)
    simp only [List.length_cons] at hhole hodd
    have hscan := sscanfHex_one (q := digits ++ q) (hdigits a (by simp)) (by simp [hq])
    have hloop := pairLoop_digits (p := [a]) (t := digits) (q := q)
      (w := [.ofNat ((hexVal a).getD 0)]) (z := z) (r := r) (s := 1) (i := 1)
      (fun c hc => hdigits c (by simp [hc])) hq (by omega) rfl rfl
    have hzero : hexVal zeroDigit = some 0 := rfl
    have hwrite : poke (h :: (z ++ r)) 0 (.ofNat ((hexVal a).getD 0))
        = some (.ofNat ((hexVal a).getD 0) :: (z ++ r)) := poke_at (p := []) h _ rfl
    simp only [List.cons_append, hscan, Option.bind_eq_bind, Option.bind_some, decodePairs, hzero,
      List.length_cons, Nat.add_sub_cancel]
    simpa [hwrite] using hloop
  · rw [if_neg hodd, if_neg hodd]
    exact pairLoop_digits (p := []) (q := q) (w := []) (z := z) hdigits hq (by omega) rfl rfl

/-- A scan is defined where a NUL follows. -/
theorem sscanfHex_ne_none {w s : Nat} : sscanfHex w m s ≠ none ↔ 0 ∈ m.drop s := by
  by_cases h : 0 ∈ m.drop s
  · simp [sscanfHex_eq h, h]
  · simp [sscanfHex, strlen, h]

/-- The loop fails if one of its scans does, for what goes wrong first cannot be a scan outside
of the string. -/
theorem pairLoop_fails_iff {left s i : Nat} {bytes : List UInt8} (hroom : i + left ≤ bytes.length) :
    (∃ out, pairLoop m left s i bytes = some (.invalidArg, out)) ↔
      ∃ k < left, sscanfHex 2 m (s + 2 * k) = some none := by
  induction left generalizing s i bytes with
  | zero => simp [pairLoop]
  | succ left ih =>
    have hfirst : (∃ k < left + 1, sscanfHex 2 m (s + 2 * k) = some none) ↔
        sscanfHex 2 m s = some none ∨ ∃ k < left, sscanfHex 2 m (s + 2 + 2 * k) = some none := by
      constructor
      · rintro ⟨k, hk, hscan⟩
        cases k with
        | zero => exact .inl hscan
        | succ k => exact .inr ⟨k, by omega, by rwa [Nat.mul_succ, ← Nat.add_assoc,
            Nat.add_right_comm] at hscan⟩
      · rintro (hscan | ⟨k, hk, hscan⟩)
        · exact ⟨0, by omega, hscan⟩
        · exact ⟨k + 1, by omega, by rwa [Nat.mul_succ, ← Nat.add_assoc, Nat.add_right_comm]⟩
    rw [hfirst, pairLoop]
    match hscan : sscanfHex 2 m s with
    | none =>
      -- outside of the string, and so are all scans behind this one
      have hend : ∀ k, sscanfHex 2 m (s + 2 + 2 * k) ≠ some none := by
        intro k hk
        have hlater : 0 ∈ m.drop (s + 2 + 2 * k) :=
        (sscanfHex_ne_none (w := 2)).mp (by simp [hk])
        have hsub := (List.drop_sublist_drop_left m (show s ≤ s + 2 + 2 * k by omega)).subset
        exact sscanfHex_ne_none.mpr (hsub hlater) hscan
      simp [hend]
    | some none => simp
    | some (some val) =>
      have hwrite : poke bytes i val.toUInt8 = some (bytes.set i val.toUInt8) := if_pos (by omega)
      have hmore : i + 1 + left ≤ (bytes.set i val.toUInt8).length := by
        rw [List.length_set]
        omega
      simp [hwrite, ih hmore]

/-! ### Which calls fail -/

/-- The places and the widths of the scans, if none of them fails. -/
def scanned (sizeBits hexStrLen : Nat) : List (Nat × Nat) :=
  let odd := hexStrLen % 2
  let pairs := (List.range ((hexStrLen + 1) % 2 ^ sizeBits / 2 - odd)).map fun k => (odd + 2 * k, 2)
  if odd ≠ 0 then (0, 1) :: pairs else pairs

/-- With room in the buffer, the decoder fails exactly at a scan that lies inside the string and
finds no number. -/
theorem convertHexToBytes_fails_iff {hexStrLen : Nat} {text bytes : List UInt8}
    (hroom : (hexStrLen + 1) % 2 ^ sizeBits / 2 ≤ bytes.length) :
    (∃ out, convertHexToBytes sizeBits (text ++ [0]) hexStrLen bytes = some (.invalidArg, out)) ↔
      ∃ scan ∈ scanned sizeBits hexStrLen, scan.1 ≤ text.length ∧
        ¬ startsNumber scan.2 (text.drop scan.1) := by
  have hpair := sscanfHex_eq_none_iff (by decide : 0 < 2) text
  generalize hout : (hexStrLen + 1) % 2 ^ sizeBits / 2 = outLen at hroom
  have hfull : ¬ bytes.length < outLen := by omega
  rw [convertHexToBytes, scanned]
  simp only [hout, if_neg hfull]
  by_cases hodd : hexStrLen % 2 ≠ 0
  · have hone : hexStrLen % 2 = 1 := by omega
    have hfirst := sscanfHex_eq_none_iff (by decide : 0 < 1) text 0
    rw [if_pos hodd, if_pos hodd, hone]
    match hscan : sscanfHex 1 (text ++ [0]) 0 with
    | none => exact absurd hscan (sscanfHex_ne_none.mpr (by simp))
    | some none =>
      obtain ⟨hle, hstarts⟩ := hfirst.mp hscan
      simpa using Or.inl hstarts
    | some (some val) =>
      have hstarts : startsNumber 1 text := by simpa [hscan] using hfirst
      match bytes with
      | [] =>
        -- an odd length of which the successor wraps to 0
        have hwrap : outLen = 0 := by simpa using hroom
        simp [poke, hwrap, hstarts]
      | b :: bytes =>
        have hwrite : poke (b :: bytes) 0 val.toUInt8 = some (val.toUInt8 :: bytes) :=
          poke_at (p := []) b _ rfl
        have hloop := pairLoop_fails_iff (m := text ++ [0]) (s := 1) (i := 1)
          (by simp only [List.length_cons] at hroom ⊢; omega :
            1 + (outLen - 1) ≤ (val.toUInt8 :: bytes).length)
        simp [hwrite, hloop, hpair, hstarts]
  · have hzero : hexStrLen % 2 = 0 := by omega
    have hloop := pairLoop_fails_iff (m := text ++ [0]) (s := 0) (i := 0)
      (by omega : 0 + outLen ≤ bytes.length)
    rw [if_neg hodd, if_neg hodd, hloop, hzero]
    simp [hpair]

/-! ### The encoder -/

/-- The loop writes the digits, and a NUL behind them that the next round overwrites. -/
theorem hexLoop_eq {bytes w z : List UInt8} {i : Nat} (hroom : bytes.length * 2 + 1 ≤ z.length)
    (hi : i * 2 = w.length) : ∃ z' : List UInt8,
    hexLoop bytes i (w ++ z) = some (w ++ (hexText bytes ++ z')) ∧ z' ≠ [] := by
  induction bytes generalizing w z i with
  | nil => exact ⟨z, rfl, List.ne_nil_of_length_pos (by omega)⟩
  | cons b bytes ih =>
    simp only [List.length_cons] at hroom
    obtain ⟨c, d, e, z, rfl⟩ : ∃ c d e more, z = c :: d :: e :: more := by
      match z with
      | c :: d :: e :: more => exact ⟨c, d, e, more, rfl⟩
      | [] | [_] | [_, _] =>
        simp only [List.length_cons, List.length_nil] at hroom
        omega
    generalize hhigh : hexDigit (b.toNat / 16) = high
    generalize hlow : hexDigit (b.toNat % 16) = low
    have hfirst : poke (w ++ c :: d :: e :: z) (i * 2) high = some (w ++ high :: d :: e :: z) :=
      poke_at c high hi
    have hsecond : poke (w ++ high :: d :: e :: z) (i * 2 + 1) low
        = some (w ++ high :: low :: e :: z) := by
      simpa using poke_at (p := w ++ [high]) (q := e :: z) (i := i * 2 + 1) d low (by simp [hi])
    have hthird : poke (w ++ high :: low :: e :: z) (i * 2 + 2) 0
        = some (w ++ high :: low :: 0 :: z) := by
      simpa using poke_at (p := w ++ [high, low]) (q := z) (i := i * 2 + 2) e 0 (by simp [hi])
    obtain ⟨z', hnext, hz'⟩ := ih (w := w ++ [high, low]) (z := 0 :: z) (i := i + 1)
      (by simp only [List.length_cons] at hroom ⊢; omega)
      (by simp only [List.length_append, List.length_cons, List.length_nil]; omega)
    refine ⟨z', ?_, hz'⟩
    rw [hexLoop, hhigh, hlow, hfirst]
    simp only [Option.bind_eq_bind, Option.bind_some, hsecond, hthird]
    simpa [hexText, hhigh, hlow] using hnext

/-- The encoder writes the digits of all bytes and a NUL. -/
theorem convertBytesToHex_eq {bytes hexStr : List UInt8}
    (hroom : bytes.length * 2 + 1 ≤ hexStr.length) (hsize : hexStr.length < 2 ^ sizeBits) :
    ∃ behind, convertBytesToHex sizeBits bytes hexStr
      = some (.ok, hexText bytes ++ 0 :: behind) := by
  obtain ⟨z, hloop, hz⟩ := hexLoop_eq (w := []) (z := hexStr) (i := 0) hroom rfl
  obtain ⟨c, behind, rfl⟩ := List.exists_cons_of_ne_nil hz
  simp only [List.nil_append] at hloop
  have hfits : ¬ hexStr.length < (bytes.length * 2 + 1) % 2 ^ sizeBits := by
    rw [Nat.mod_eq_of_lt (by omega)]
    omega
  refine ⟨behind, ?_⟩
  rw [convertBytesToHex, if_neg hfits, hloop, Option.bind_eq_bind, Option.bind_some,
    poke_at c 0 (length_hexText bytes).symm]
  rfl

/-! ### The codec -/

/-- What the decoder promises: it takes the digits of the given length and nothing else. -/
def DecodesFirst (sizeBits : Nat) (text : List UInt8) (hexStrLen : Nat) (bytes : List UInt8) :
    Prop :=
  ∃ err out, convertHexToBytes sizeBits (text ++ [0]) hexStrLen bytes = some (err, out) ∧
    (err = .ok ↔ (hexStrLen + 1) / 2 ≤ bytes.length ∧ hexStrLen ≤ text.length ∧
      ∀ c ∈ text.take hexStrLen, isHexDigit c) ∧
    (err = .ok → out = decodeHex (text.take hexStrLen) ++ bytes.drop ((hexStrLen + 1) / 2))

/-- The decoder takes back what the encoder writes. On another text it keeps its promise exactly
if the buffer is too small, if it is given digits, or if one of its scans finds no number. -/
theorem hexCodec (sizeBits : Nat) :
    (∀ bytes hexStr out : List UInt8, bytes.length * 2 + 1 ≤ hexStr.length →
      hexStr.length < 2 ^ sizeBits → bytes.length ≤ out.length →
      ∃ s, convertBytesToHex sizeBits bytes hexStr = some (.ok, s) ∧
        convertHexToBytes sizeBits s (bytes.length * 2) out
          = some (.ok, bytes ++ out.drop bytes.length)) ∧
    ∀ (text : List UInt8) (hexStrLen : Nat) (bytes : List UInt8),
      text.length + 1 < 2 ^ sizeBits → hexStrLen < 2 ^ sizeBits →
      (DecodesFirst sizeBits text hexStrLen bytes ↔
        bytes.length < (hexStrLen + 1) % 2 ^ sizeBits / 2 ∨
        (hexStrLen ≤ text.length ∧ ∀ c ∈ text.take hexStrLen, isHexDigit c) ∨
        ∃ scan ∈ scanned sizeBits hexStrLen, scan.1 ≤ text.length ∧
          ¬ startsNumber scan.2 (text.drop scan.1)) := by
  constructor
  · intro bytes hexStr out hroom hsize hout
    obtain ⟨behind, hencode⟩ := convertBytesToHex_eq hroom hsize
    have hfits : ((hexText bytes).length + 1) / 2 ≤ out.length := by
      rw [length_hexText]
      omega
    have hdecode := convertHexToBytes_digits (isHexDigit_hexText bytes)
      (by rw [length_hexText]; omega : (hexText bytes).length + 1 < 2 ^ sizeBits) hfits
      (List.mem_cons_self : 0 ∈ 0 :: behind)
    have hhalf : (bytes.length * 2 + 1) / 2 = bytes.length := by omega
    rw [length_hexText, decodeHex_hexText, hhalf] at hdecode
    exact ⟨_, hencode, hdecode⟩
  · intro text hexStrLen bytes htext hlen
    by_cases hfull : bytes.length < (hexStrLen + 1) % 2 ^ sizeBits / 2
    · have hrun : convertHexToBytes sizeBits (text ++ [0]) hexStrLen bytes
          = some (.invalidArg, bytes) := by
        rw [convertHexToBytes, if_pos hfull]
      have hlong : ¬ (hexStrLen + 1) / 2 ≤ bytes.length := by
        have hle := Nat.mod_le (hexStrLen + 1) (2 ^ sizeBits)
        omega
      simp [DecodesFirst, hrun, hlong, hfull]
    by_cases hdigits : hexStrLen ≤ text.length ∧ ∀ c ∈ text.take hexStrLen, isHexDigit c
    · -- digits: the text is taken, and its bytes are the right ones
      obtain ⟨hshort, hall⟩ := hdigits
      have htake : (text.take hexStrLen).length = hexStrLen := by
        rw [List.length_take]
        omega
      rw [Nat.mod_eq_of_lt (by omega)] at hfull
      have hrun : convertHexToBytes sizeBits (text.take hexStrLen ++ (text.drop hexStrLen ++ [0]))
          (text.take hexStrLen).length bytes = some (.ok, decodeHex (text.take hexStrLen) ++
            bytes.drop (((text.take hexStrLen).length + 1) / 2)) :=
        convertHexToBytes_digits hall (by omega) (by omega) (by simp)
      rw [htake, ← List.append_assoc, List.take_append_drop] at hrun
      have hroom : (hexStrLen + 1) / 2 ≤ bytes.length := by omega
      have hspec : (hexStrLen + 1) / 2 ≤ bytes.length ∧ hexStrLen ≤ text.length ∧
          ∀ c ∈ text.take hexStrLen, isHexDigit c := ⟨hroom, hshort, hall⟩
      constructor
      · intro _
        exact .inr (.inl ⟨hshort, hall⟩)
      · intro _
        exact ⟨_, _, hrun, by simpa using hspec, fun _ => rfl⟩
    · -- no digits: the promise is kept exactly if a scan fails
      have hspec : ¬ ((hexStrLen + 1) / 2 ≤ bytes.length ∧ hexStrLen ≤ text.length ∧
          ∀ c ∈ text.take hexStrLen, isHexDigit c) := fun h => hdigits h.2
      rw [or_iff_right hfull, or_iff_right hdigits,
        ← convertHexToBytes_fails_iff (Nat.not_lt.mp hfull)]
      constructor
      · rintro ⟨err, out, hrun, hok, -⟩
        cases err with
        | ok => exact absurd (hok.mp rfl) hspec
        | invalidArg => exact ⟨out, hrun⟩
      · rintro ⟨out, hrun⟩
        refine ⟨_, _, hrun, ?_, ?_⟩
        · simpa using hspec
        · intro h
          cases h

/-- Digits of both lengths, and a text without a digit. -/
theorem hexCodec_examples :
    (∃ s, convertBytesToHex 32 [0xa5, 7] [1, 1, 1, 1, 1] = some (.ok, s) ∧
      convertHexToBytes 32 s 4 [1, 1, 1] = some (.ok, [0xa5, 7, 1])) ∧
    DecodesFirst 32 [102, 102, 49] 3 [0, 0] ∧ DecodesFirst 32 [120, 122] 2 [0] :=
  ⟨(hexCodec 32).1 [0xa5, 7] [1, 1, 1, 1, 1] [1, 1, 1] (by decide) (by decide) (by decide),
    ((hexCodec 32).2 [102, 102, 49] 3 [0, 0] (by decide) (by decide)).mpr
      (.inr (.inl ⟨by decide, List.all_eq_true.mp (by decide)⟩)),
    ((hexCodec 32).2 [120, 122] 2 [0] (by decide) (by decide)).mpr (.inr (.inr (by decide)))⟩

/-- A blank in front of a digit is decoded to one byte. -/
theorem blank_decoded : convertHexToBytes 32 [32, 49, 0] 2 [0] = some (.ok, [1]) ∧
    ¬ DecodesFirst 32 [32, 49] 2 [0] := by
  have hdecoded : convertHexToBytes 32 [32, 49, 0] 2 [0] = some (.ok, [1]) := by decide
  refine ⟨hdecoded, ?_⟩
  rintro ⟨err, out, hrun, hok, -⟩
  obtain ⟨rfl, -⟩ := Prod.mk.inj (Option.some.inj (hdecoded.symm.trans hrun))
  exact absurd (hok.mp rfl).2.2 (by decide)

end RainMakerNeo.Common
