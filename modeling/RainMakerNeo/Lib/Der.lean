import Mathlib.Data.Nat.Digits.Lemmas

/-!
# `RainMakerNeo.Lib.Der`: the DER form of integers and of a pair of them

A DER element is a tag, a length and the contents. The lengths here are below 128, so each is one
byte. The contents of an INTEGER are the shortest two's complement form of its value, most
significant byte first.

* `integer` and `sequenceOf` write, for numbers that are not negative. `readPair` reads, and refuses
  all but the shortest form.
* `readPair_eq_some_iff`: a SEQUENCE of two INTEGERs is read as a pair of numbers exactly when it is
  what the writer makes of them, so each pair has one encoding.
* `natBytes_value`: the shortest bytes of a number come out of any bytes of it by dropping zeros.
-/

set_option autoImplicit false

namespace RainMakerNeo.Lib.Der

/-! ### Numbers as bytes -/

/-- The number of some bytes, most significant first. -/
def value (bytes : List UInt8) : Nat := Nat.ofDigits 256 (bytes.reverse.map UInt8.toNat)

/-- The shortest bytes of a number. There are none for zero. -/
def natBytes (v : Nat) : List UInt8 := ((Nat.digits 256 v).map UInt8.ofNat).reverse

theorem digits_lt (bytes : List UInt8) : ∀ d ∈ bytes.reverse.map UInt8.toNat, d < 256 := by
  intro d hd
  obtain ⟨b, -, rfl⟩ := List.mem_map.mp hd
  exact b.toNat_lt

theorem value_lt (bytes : List UInt8) : value bytes < 256 ^ bytes.length := by
  simpa [value] using Nat.ofDigits_lt_base_pow_length (by decide) (digits_lt bytes)

theorem value_cons (b : UInt8) (bytes : List UInt8) :
    value (b :: bytes) = b.toNat * 256 ^ bytes.length + value bytes := by
  simp [value, Nat.ofDigits_append, Nat.mul_comm, Nat.add_comm]

@[simp] theorem value_nil : value [] = 0 := rfl

@[simp] theorem value_zero_cons (bytes : List UInt8) : value (0 :: bytes) = value bytes := by
  simp [value_cons]

/-- Bytes that do not start with a zero are the shortest ones. -/
theorem natBytes_of_head {b : UInt8} (bytes : List UInt8) (hb : b ≠ 0) :
    natBytes (value (b :: bytes)) = b :: bytes := by
  have hlast : ∀ h : (b :: bytes).reverse.map UInt8.toNat ≠ [],
      ((b :: bytes).reverse.map UInt8.toNat).getLast h ≠ 0 := by
    intro h
    have hb' : b.toNat ≠ (0 : UInt8).toNat := fun h => hb (UInt8.toNat_inj.mp h)
    simpa using hb'
  have hdigits := Nat.digits_ofDigits 256 (by decide) _ (digits_lt (b :: bytes)) hlast
  rw [natBytes, value, hdigits, List.map_map]
  have hid : UInt8.ofNat ∘ UInt8.toNat = id := by
    funext c
    simp
  rw [hid, List.map_id, List.reverse_reverse]

/-- The shortest bytes of the number of some bytes. -/
theorem natBytes_value (bytes : List UInt8) :
    natBytes (value bytes) = bytes.dropWhile (· = 0) := by
  induction bytes with
  | nil => simp [natBytes]
  | cons b bytes ih =>
    by_cases hb : b = 0
    · simpa [hb] using ih
    · simpa [hb] using natBytes_of_head bytes hb

theorem value_natBytes (v : Nat) : value (natBytes v) = v := by
  have hmap : ((Nat.digits 256 v).map UInt8.ofNat).map UInt8.toNat = Nat.digits 256 v := by
    rw [List.map_map]
    refine (List.map_congr_left ?_).trans (List.map_id _)
    intro d hd
    have hlt : d < 256 := Nat.digits_lt_base (by decide) hd
    simp [UInt8.toNat_ofNat', Nat.mod_eq_of_lt hlt]
  rw [value, natBytes, List.reverse_reverse, hmap, Nat.ofDigits_digits]

variable {v : Nat} {bytes contents : List UInt8}

/-- The shortest bytes do not start with a zero. -/
theorem natBytes_head {b : UInt8} (h : natBytes v = b :: bytes) : b ≠ 0 := by
  rintro rfl
  have hdrop := natBytes_value (natBytes v)
  rw [value_natBytes, h] at hdrop
  have hlen := congrArg List.length hdrop
  have hle := (List.dropWhile_sublist (fun c : UInt8 => decide (c = 0)) (l := bytes)).length_le
  simp only [decide_true, List.dropWhile_cons_of_pos, List.length_cons] at hlen
  omega

/-! ### Writing -/

/-- A tag, the length and the contents. -/
def tlv (tag : UInt8) (contents : List UInt8) : List UInt8 :=
  tag :: UInt8.ofNat contents.length :: contents

/-- The contents of an INTEGER. A zero in front keeps the sign bit clear. -/
def intContents (v : Nat) : List UInt8 :=
  match natBytes v with
  | [] => [0]
  | b :: bytes => if 128 ≤ b then 0 :: b :: bytes else b :: bytes

/-- An INTEGER. -/
def integer (v : Nat) : List UInt8 := tlv 2 (intContents v)

/-- A SEQUENCE. -/
def sequenceOf (elements : List (List UInt8)) : List UInt8 := tlv 48 elements.flatten

/-! ### Reading -/

/-- The contents of the first element, and what comes behind it. -/
def readTlv (tag : UInt8) : List UInt8 → Option (List UInt8 × List UInt8)
  | t :: len :: bytes =>
    if t = tag ∧ len < 128 ∧ len.toNat ≤ bytes.length then
      some (bytes.take len.toNat, bytes.drop len.toNat)
    else none
  | _ => none

/-- A first byte that only repeats the sign of the second one. -/
def redundant : List UInt8 → Bool
  | b :: c :: _ => (b = 0 ∧ c < 128) ∨ (b = 255 ∧ 128 ≤ c)
  | _ => false

/-- The value of the contents of an INTEGER, which are the shortest ones. -/
def readInt : List UInt8 → Option Int
  | [] => none
  | b :: bytes =>
    if redundant (b :: bytes) then none
    else if 128 ≤ b then some (value (b :: bytes) - 256 ^ (bytes.length + 1))
    else some (value (b :: bytes))

/-- The first INTEGER, and what comes behind it. -/
def readInteger (bytes : List UInt8) : Option (Int × List UInt8) := do
  let (contents, rest) ← readTlv 2 bytes
  let v ← readInt contents
  return (v, rest)

/-- A SEQUENCE of two INTEGERs, and nothing behind it. -/
def readPair (bytes : List UInt8) : Option (Int × Int) := do
  let (contents, rest) ← readTlv 48 bytes
  let (r, behind) ← readInteger contents
  let (s, last) ← readInteger behind
  if rest = [] ∧ last = [] then some (r, s) else none

/-! ### One encoding for each value -/

theorem readTlv_eq_some_iff {tag : UInt8} {rest : List UInt8} :
    readTlv tag bytes = some (contents, rest) ↔
      bytes = tlv tag contents ++ rest ∧ contents.length < 128 := by
  constructor
  · intro h
    match bytes with
    | [] => simp [readTlv] at h
    | [_] => simp [readTlv] at h
    | t :: len :: bytes =>
      by_cases hif : t = tag ∧ len < 128 ∧ len.toNat ≤ bytes.length
      · rw [readTlv, if_pos hif] at h
        obtain ⟨rfl, hlen, hle⟩ := hif
        obtain ⟨rfl, rfl⟩ : bytes.take len.toNat = contents ∧ bytes.drop len.toNat = rest := by
          simpa using h
        have hlt : len.toNat < 128 := UInt8.lt_iff_toNat_lt.mp hlen
        simp [tlv, hle, hlt]
      · rw [readTlv, if_neg hif] at h
        simp at h
  · rintro ⟨rfl, hlt⟩
    have hlen : (UInt8.ofNat contents.length).toNat = contents.length := by
      rw [UInt8.toNat_ofNat']
      omega
    have hshort : UInt8.ofNat contents.length < 128 := by
      rw [UInt8.lt_iff_toNat_lt, hlen]
      exact hlt
    simp [readTlv, tlv, hlen, hshort]

theorem readInt_intContents (v : Nat) : readInt (intContents v) = some (v : Int) := by
  have hvalue := value_natBytes v
  unfold intContents
  cases hbytes : natBytes v with
  | nil =>
    rw [hbytes] at hvalue
    simp [readInt, redundant, ← hvalue]
  | cons b bytes =>
    have hb := natBytes_head hbytes
    rw [hbytes] at hvalue
    by_cases hsign : 128 ≤ b
    · have hlt : ¬ b < 128 := UInt8.not_lt.mpr hsign
      simp [readInt, redundant, hsign, hlt, hvalue]
    · have hff : b ≠ 255 := by
        rintro rfl
        exact hsign (by decide)
      cases bytes <;> simp [readInt, redundant, hsign, hb, hff, hvalue]

/-- Contents with a value that is not negative are the ones that the writer makes. -/
theorem eq_intContents (h : readInt contents = some (v : Int)) : contents = intContents v := by
  cases contents with
  | nil => simp [readInt] at h
  | cons b bytes =>
    by_cases hshort : redundant (b :: bytes)
    · simp [readInt, hshort] at h
    by_cases hsign : 128 ≤ b
    · -- a set sign bit would make the value negative
      have hlt : (value (b :: bytes) : Int) < 256 ^ (bytes.length + 1) := by
        exact_mod_cast value_lt (b :: bytes)
      have heq : (value (b :: bytes) : Int) - 256 ^ (bytes.length + 1) = v := by
        simpa [readInt, hshort, hsign] using h
      omega
    · have hv : value (b :: bytes) = v := by
        simpa [readInt, hshort, hsign] using h
      rw [← hv]
      by_cases hb : b = 0
      · subst hb
        cases bytes with
        | nil => decide
        | cons c bytes =>
          have hc : 128 ≤ c := by simpa [redundant] using hshort
          have hc0 : c ≠ 0 := by
            rintro rfl
            exact absurd hc (by decide)
          simp [intContents, natBytes_of_head bytes hc0, hc]
      · simp [intContents, natBytes_of_head bytes hb, hsign]

theorem readInt_eq_some_iff : readInt contents = some (v : Int) ↔ contents = intContents v := by
  constructor
  · exact eq_intContents
  · rintro rfl
    exact readInt_intContents v

theorem readInteger_eq_some_iff {rest : List UInt8} :
    readInteger bytes = some ((v : Int), rest) ↔
      bytes = integer v ++ rest ∧ (intContents v).length < 128 := by
  constructor
  · intro h
    obtain ⟨⟨contents, behind⟩, htlv, h⟩ := Option.bind_eq_some_iff.mp h
    obtain ⟨w, hint, h⟩ := Option.bind_eq_some_iff.mp h
    simp only [Option.pure_def, Option.some.injEq, Prod.mk.injEq] at h
    obtain ⟨rfl, rfl⟩ := h
    obtain rfl := readInt_eq_some_iff.mp hint
    exact readTlv_eq_some_iff.mp htlv
  · intro h
    simp [readInteger, readTlv_eq_some_iff.mpr h, readInt_eq_some_iff.mpr rfl]

/-- A pair of numbers has one encoding. -/
theorem readPair_eq_some_iff {r s : Nat} :
    readPair bytes = some ((r : Int), (s : Int)) ↔
      bytes = sequenceOf [integer r, integer s] ∧ (integer r ++ integer s).length < 128 := by
  constructor
  · intro h
    obtain ⟨⟨contents, rest⟩, htlv, h⟩ := Option.bind_eq_some_iff.mp h
    obtain ⟨⟨r', behind⟩, hr, h⟩ := Option.bind_eq_some_iff.mp h
    obtain ⟨⟨s', last⟩, hs, h⟩ := Option.bind_eq_some_iff.mp h
    by_cases hend : rest = [] ∧ last = []
    · obtain ⟨rfl, rfl⟩ := hend
      obtain ⟨rfl, rfl⟩ : r' = r ∧ s' = s := by simpa using h
      obtain ⟨rfl, -⟩ := readInteger_eq_some_iff.mp hs
      obtain ⟨rfl, -⟩ := readInteger_eq_some_iff.mp hr
      obtain ⟨rfl, hlen⟩ := readTlv_eq_some_iff.mp htlv
      simpa [sequenceOf] using hlen
    · simp [hend] at h
  · rintro ⟨rfl, hlen⟩
    have htlv : readTlv 48 (sequenceOf [integer r, integer s])
        = some (integer r ++ integer s, []) :=
      readTlv_eq_some_iff.mpr ⟨by simp [sequenceOf], hlen⟩
    have hlenr : (intContents r).length < 128 := by
      simp [integer, tlv] at hlen
      omega
    have hlens : (intContents s).length < 128 := by
      simp [integer, tlv] at hlen
      omega
    have hr : readInteger (integer r ++ integer s) = some ((r : Int), integer s) :=
      readInteger_eq_some_iff.mpr ⟨rfl, hlenr⟩
    have hs : readInteger (integer s) = some ((s : Int), []) :=
      readInteger_eq_some_iff.mpr ⟨by simp, hlens⟩
    simp [readPair, htlv, hr, hs]

end RainMakerNeo.Lib.Der
