import RainMakerNeo.Lib.Der
import RainMakerNeo.Lib.Memory

/-!
# `RainMakerNeo.Common.EcdsaDer`: the DER form of a raw ECDSA signature

A raw signature is two numbers of a fixed length, one behind the other. The sizing helper counts
the contents of an INTEGER, and the writing helper finds them again. `contentLenFromFixed_eq` and
`writeIntFromFixed_eq` compare both with the DER integer of the number, for any bytes.

A block from `malloc` has cells that are not written yet, so its cells are `Option UInt8`.
-/

set_option autoImplicit false

namespace RainMakerNeo.Common

open RainMakerNeo.Lib RainMakerNeo.Lib.Der

/-! ### The code -/

/-- The errors of `__crypto_ecdsa_raw_to_der`. -/
inductive RawToDerErr
  | invalidArg | invalidState | noMem
  deriving DecidableEq, Repr

/-- The loop of both helpers: the place of the first byte that is not zero. -/
def trimZeros (x : List UInt8) : Nat → Nat → Option Nat
  | 0, i => some i
  | left + 1, i => do
    let b ← peek x i
    if b = 0 then trimZeros x left (i + 1) else some i

/-- `__crypto_der_int_content_len_from_fixed` -/
def contentLenFromFixed (x : List UInt8) (n : Nat) : Option Nat := do
  let i ← trimZeros x n 0
  -- zeros only are the value zero, which has one byte
  let vlen := if i = n then 1 else n - i
  let first ← (if i = n then some 0 else peek x i)
  return if first &&& 0x80 ≠ 0 then vlen + 1 else vlen

/-- `__crypto_der_write_int_from_fixed`: the block and the new offset. -/
def writeIntFromFixed (dst : List (Option UInt8)) (off : Nat) (x : List UInt8) (n : Nat) :
    Option (List (Option UInt8) × Nat) := do
  let i ← trimZeros x n 0
  let vrawLen := if i = n then 1 else n - i
  let v ← (if i = n then some [0] else copyFrom x i vrawLen)
  let dst ← poke dst off (some 2)
  -- a zero in front keeps the INTEGER positive
  let first ← peek v 0
  let needPad := first &&& 0x80 ≠ 0
  let vlen := vrawLen + if needPad then 1 else 0
  let dst ← poke dst (off + 1) (some (.ofNat vlen))
  let dst ← (if needPad then poke dst (off + 2) (some 0) else some dst)
  let off := off + 2 + if needPad then 1 else 0
  let dst ← copyTo dst off (v.map some)
  return (dst, off + vrawLen)

/-- `__crypto_ecdsa_raw_to_der` with a `size_t` of `sizeBits` bits. No pointer is NULL, and
`allocates` is what `malloc` does. -/
def ecdsaRawToDer (sizeBits : Nat) (allocates : Bool) (raw : List UInt8) (keyBits : Nat) :
    Option (Except RawToDerErr (List (Option UInt8))) :=
  let n := (keyBits + 7) % 2 ^ sizeBits / 8
  if raw.length = 0 ∨ keyBits = 0 then some (.error .invalidArg)
  else if raw.length ≠ 2 * n then some (.error .invalidArg)
  else do
    let r := raw
    let s := raw.drop n
    let rVlen ← contentLenFromFixed r n
    let sVlen ← contentLenFromFixed s n
    let rTlv := 2 + rVlen
    let sTlv := 2 + sVlen
    let seqLen := rTlv + sTlv
    -- longer contents would need a length of more than one byte
    if 128 ≤ seqLen then return .error .invalidState
    else if allocates then
      let out := List.replicate (2 + seqLen) none
      let out ← poke out 0 (some 0x30)
      let out ← poke out 1 (some (.ofNat seqLen))
      let (out, off) ← writeIntFromFixed out 2 r n
      let (out, _) ← writeIntFromFixed out off s n
      return .ok out
    else return .error .noMem

/-! ### The two helpers agree -/

/-- The loop stops behind the zeros. -/
theorem trimZeros_eq (p bytes behind : List UInt8) :
    trimZeros (p ++ (bytes ++ behind)) bytes.length p.length
      = some (p.length + (bytes.takeWhile (· = 0)).length) := by
  -- a zero joins the part that is passed over
  induction bytes generalizing p with
  | nil => simp [trimZeros]
  | cons b bytes ih =>
    rw [List.length_cons, trimZeros, List.cons_append, peek_at b rfl, Option.bind_eq_bind,
      Option.bind_some]
    by_cases hb : b = 0
    · have hnext := ih (p ++ [b])
      simp only [List.append_assoc, List.cons_append, List.nil_append, List.length_append,
        List.length_singleton] at hnext
      rw [if_pos hb, hnext, List.takeWhile_cons_of_pos (by simpa using hb), List.length_cons]
      simp only [Option.some.injEq]
      omega
    · simp [hb]

/-- The bit of the sign. -/
theorem and_sign_ne_zero (b : UInt8) : b &&& 0x80 ≠ 0 ↔ 128 ≤ b := by
  have hall : ∀ k < 256, (k &&& 128 ≠ 0 ↔ 128 ≤ k) := by decide +kernel
  have hb := hall b.toNat b.toNat_lt
  rw [ne_eq, ← UInt8.toNat_inj, UInt8.toNat_and, UInt8.le_iff_toNat_le]
  exact hb

/-- Bytes of zero only, or zeros in front of the shortest bytes of the number. -/
theorem zeros_or_split (bytes : List UInt8) :
    ((bytes.takeWhile (· = 0)).length = bytes.length ∧ natBytes (value bytes) = []) ∨
    ∃ zeros b rest, bytes = zeros ++ b :: rest ∧ (bytes.takeWhile (· = 0)).length = zeros.length ∧
      natBytes (value bytes) = b :: rest := by
  have hsplit := List.takeWhile_append_dropWhile (p := fun c : UInt8 => decide (c = 0)) (l := bytes)
  rw [natBytes_value]
  cases htrim : bytes.dropWhile (· = 0) with
  | nil =>
    left
    rw [htrim, List.append_nil] at hsplit
    exact ⟨congrArg List.length hsplit, rfl⟩
  | cons b rest =>
    right
    rw [htrim] at hsplit
    exact ⟨_, b, rest, hsplit.symm, rfl, rfl⟩

section Helpers
variable (bytes behind : List UInt8)

/-- The sizing helper counts the contents of the integer. -/
theorem contentLenFromFixed_eq :
    contentLenFromFixed (bytes ++ behind) bytes.length
      = some (intContents (value bytes)).length := by
  have htrim := trimZeros_eq [] bytes behind
  rw [List.nil_append, List.length_nil, Nat.zero_add] at htrim
  rw [contentLenFromFixed, htrim]
  rcases zeros_or_split bytes with ⟨hall, hnone⟩ | ⟨zeros, b, rest, hbytes, hzeros, hsome⟩
  · simp [hall, intContents, hnone]
  · have hlen : bytes.length = zeros.length + (rest.length + 1) := by simp [hbytes]
    have hne : ¬ zeros.length = bytes.length := by omega
    have hvlen : bytes.length - zeros.length = rest.length + 1 := by omega
    have hfirst : peek (bytes ++ behind) zeros.length = some b := by
      rw [hbytes, List.append_assoc, List.cons_append]
      exact peek_at b rfl
    by_cases hsign : 128 ≤ b
    · have hpad := (and_sign_ne_zero b).mpr hsign
      simp [hzeros, hne, hvlen, hfirst, hpad, intContents, hsome, hsign]
    · have hpad : b &&& 0x80 = 0 := not_not.mp (mt (and_sign_ne_zero b).mp hsign)
      simp [hzeros, hne, hvlen, hfirst, hpad, intContents, hsome, hsign]

/-- What the writing helper copies: the shortest bytes, or one zero. -/
theorem copied_eq : ∃ i b tail,
    trimZeros (bytes ++ behind) bytes.length 0 = some i ∧
    (if i = bytes.length then 1 else bytes.length - i) = tail.length + 1 ∧
    (if i = bytes.length then some [0] else copyFrom (bytes ++ behind) i (tail.length + 1))
      = some (b :: tail) ∧
    intContents (value bytes) = if 128 ≤ b then 0 :: b :: tail else b :: tail := by
  have htrim := trimZeros_eq [] bytes behind
  rw [List.nil_append, List.length_nil, Nat.zero_add] at htrim
  rcases zeros_or_split bytes with ⟨hall, hnone⟩ | ⟨zeros, b, rest, hbytes, hzeros, hsome⟩
  · exact ⟨_, 0, [], htrim, by simp [hall], by simp [hall], by simp [intContents, hnone]⟩
  · have hlen : bytes.length = zeros.length + (rest.length + 1) := by simp [hbytes]
    have hne : ¬ zeros.length = bytes.length := by omega
    have hcopy : copyFrom (bytes ++ behind) zeros.length (rest.length + 1) = some (b :: rest) := by
      rw [hbytes, List.append_assoc]
      exact copyFrom_at rfl rfl
    rw [hzeros] at htrim
    refine ⟨_, b, rest, htrim, ?_, ?_, ?_⟩
    · rw [if_neg hne]
      omega
    · rw [if_neg hne]
      exact hcopy
    · simp [intContents, hsome]

/-- The writing helper writes the integer, over as many cells as it has. -/
theorem writeIntFromFixed_eq {w : List UInt8} {z q : List (Option UInt8)} {o : Nat}
    (hhole : z.length = (integer (value bytes)).length) (hoff : o = w.length) :
    writeIntFromFixed (w.map some ++ (z ++ q)) o (bytes ++ behind) bytes.length
      = some ((w ++ integer (value bytes)).map some ++ q,
          (w ++ integer (value bytes)).length) := by
  obtain ⟨i, b, tail, hi, hlen, hv, hcontents⟩ := copied_eq bytes behind
  simp only [integer, tlv, List.length_cons] at hhole
  obtain ⟨h0, h1, contents, rfl⟩ : ∃ h0 h1 contents, z = h0 :: h1 :: contents := by
    cases z with
    | nil => simp at hhole
    | cons h0 rest =>
      cases rest with
      | nil => simp at hhole
      | cons h1 contents => exact ⟨h0, h1, contents, rfl⟩
  have hfirst : peek (b :: tail) 0 = some b := rfl
  rw [hcontents] at hhole
  rw [integer, tlv, hcontents, writeIntFromFixed, hi]
  simp only [Option.bind_eq_bind, Option.bind_some, hlen, hv, hfirst, List.cons_append]
  rw [poke_next 2 hoff, Option.bind_some, poke_next _ (by simp [hoff]), Option.bind_some]
  by_cases hsign : 128 ≤ b
  · have hpad := (and_sign_ne_zero b).mpr hsign
    -- the zero in front takes a cell of its own
    rw [if_pos hsign] at hhole
    simp only [List.length_cons] at hhole
    obtain ⟨h2, data, rfl⟩ := List.exists_cons_of_length_pos (by omega : 0 < contents.length)
    have hdata : data.length = (b :: tail).length := by simpa using hhole
    rw [if_pos hpad, if_pos hpad, if_pos hsign, List.cons_append, poke_next 0 (by simp [hoff]),
      Option.bind_some, copyTo_next hdata (by simp [hoff])]
    simp [hoff]
    omega
  · have hpad : ¬ b &&& 0x80 ≠ 0 := mt (and_sign_ne_zero b).mp hsign
    have hdata : contents.length = (b :: tail).length := by simpa [hsign] using hhole
    rw [if_neg hpad, if_neg hpad, if_neg hsign, Option.bind_some,
      copyTo_next hdata (by simp [hoff])]
    simp [hoff]
    omega

end Helpers

/-! ### The whole signature -/

/-- The two numbers of a raw signature, and its DER form. -/
theorem ecdsaRawToDer_eq {sizeBits keyBits n : Nat} {rBytes sBytes : List UInt8}
    (hkey : keyBits ≠ 0) (hn : (keyBits + 7) % 2 ^ sizeBits / 8 = n) (hr : rBytes.length = n)
    (hs : sBytes.length = n) (hpos : n ≠ 0) :
    ecdsaRawToDer sizeBits true (rBytes ++ sBytes) keyBits
      = some (if 128 ≤ (integer (value rBytes) ++ integer (value sBytes)).length
          then .error .invalidState
          else .ok ((sequenceOf [integer (value rBytes), integer (value sBytes)]).map some)) := by
  have hraw : (rBytes ++ sBytes).length = 2 * n := by
    rw [List.length_append]
    omega
  have hnonzero : ¬ (2 * n = 0 ∨ keyBits = 0) := by omega
  have hdrop : (rBytes ++ sBytes).drop n = sBytes ++ [] := by simp [← hr]
  have hseq : 2 + (intContents (value rBytes)).length + (2 + (intContents (value sBytes)).length)
      = (integer (value rBytes) ++ integer (value sBytes)).length := by
    simp [integer, tlv]
    omega
  have hlenr := contentLenFromFixed_eq rBytes sBytes
  have hlens := contentLenFromFixed_eq sBytes []
  rw [hr] at hlenr
  rw [hs] at hlens
  rw [ecdsaRawToDer, hn]
  simp only [hraw, if_neg hnonzero, ne_eq, not_true_eq_false, if_false, hdrop, hlenr, hlens,
    Option.bind_eq_bind, Option.bind_some, hseq]
  by_cases hlong : 128 ≤ (integer (value rBytes) ++ integer (value sBytes)).length
  · rw [if_pos hlong, if_pos hlong]
    rfl
  · rw [if_neg hlong, if_neg hlong, if_pos trivial, sequenceOf, tlv, List.flatten_cons,
      List.flatten_singleton]
    -- the block of the whole signature, in the parts that are written one behind the other
    generalize hR : integer (value rBytes) = R
    generalize hS : integer (value sBytes) = S
    have hblock : List.replicate (2 + (R ++ S).length) (none : Option UInt8)
        = [].map some ++ none :: none ::
          (List.replicate R.length none ++ (List.replicate S.length none ++ [])) := by
      rw [List.length_append, Nat.add_comm 2, List.replicate_succ, List.replicate_succ,
        List.replicate_add]
      simp
    generalize hhead : [48, UInt8.ofNat (R ++ S).length] = head
    have htag : poke ([].map some ++ none :: none ::
          (List.replicate R.length none ++ (List.replicate S.length none ++ []))) 0
          (some (48 : UInt8))
        = some ([48].map some ++ none ::
          (List.replicate R.length none ++ (List.replicate S.length none ++ []))) :=
      poke_next 48 rfl
    have hlen : poke ([48].map some ++ none ::
          (List.replicate R.length none ++ (List.replicate S.length none ++ []))) 1
          (some (.ofNat (R ++ S).length))
        = some (head.map some ++
          (List.replicate R.length none ++ (List.replicate S.length none ++ []))) := by
      rw [← hhead]
      exact poke_next _ rfl
    have hwriteR := writeIntFromFixed_eq rBytes sBytes (w := head) (o := 2)
      (z := List.replicate R.length none) (q := List.replicate S.length none ++ [])
      (by simp [hR]) (by simp [← hhead])
    have hwriteS := writeIntFromFixed_eq sBytes [] (w := head ++ R)
      (z := List.replicate S.length none) (q := []) (by simp [hS]) rfl
    rw [hr, hR] at hwriteR
    rw [hs, hS] at hwriteS
    rw [hblock, htag, Option.bind_some, hlen, Option.bind_some, hwriteR, Option.bind_some, hwriteS,
      Option.bind_some]
    simp [← hhead]

/-- The DER form of a raw signature, for each length of the key (`psa_get_key_bits` gives 16 bits,
so the sum does not wrap). -/
theorem ecdsaRawToDer_spec {sizeBits keyBits : Nat} (raw : List UInt8) (hkey : keyBits ≠ 0)
    (hbits : keyBits + 7 < 2 ^ sizeBits) :
    ∃ result, ecdsaRawToDer sizeBits true raw keyBits = some result ∧
      let n := (keyBits + 7) / 8
      let r := value (raw.take n)
      let s := value (raw.drop n)
      ((∃ err, result = .error err) ↔
        raw.length ≠ 2 * n ∨ 128 ≤ (integer r ++ integer s).length) ∧
      ∀ block, result = .ok block →
        ∃ der, block = der.map some ∧ der = sequenceOf [integer r, integer s] ∧
          readPair der = some ((r : Int), (s : Int)) ∧
          ∀ other, readPair other = some ((r : Int), (s : Int)) → other = der := by
  obtain ⟨n, hnbytes⟩ : ∃ n, n = (keyBits + 7) / 8 := ⟨_, rfl⟩
  obtain ⟨r, hrval⟩ : ∃ r, r = value (raw.take n) := ⟨_, rfl⟩
  obtain ⟨s, hsval⟩ : ∃ s, s = value (raw.drop n) := ⟨_, rfl⟩
  dsimp only
  rw [← hnbytes, ← hrval, ← hsval]
  have hn : (keyBits + 7) % 2 ^ sizeBits / 8 = n := by rw [Nat.mod_eq_of_lt hbits, hnbytes]
  have hpos : n ≠ 0 := by omega
  by_cases hlen : raw.length = 2 * n
  · have hr : (raw.take n).length = n := by
      rw [List.length_take]
      omega
    have hs : (raw.drop n).length = n := by
      rw [List.length_drop]
      omega
    have heq := ecdsaRawToDer_eq hkey hn hr hs hpos
    rw [List.take_append_drop, ← hrval, ← hsval] at heq
    by_cases hlong : 128 ≤ (integer r ++ integer s).length
    · rw [if_pos hlong] at heq
      refine ⟨_, heq, ?_, ?_⟩
      · simpa using Or.inr hlong
      · intro block hblock
        cases hblock
    · rw [if_neg hlong] at heq
      refine ⟨_, heq, ?_, ?_⟩
      · simpa [hlen] using hlong
      · intro block hblock
        have hpair : ∀ bytes, readPair bytes = some ((r : Int), (s : Int)) ↔
            bytes = sequenceOf [integer r, integer s] ∧ (integer r ++ integer s).length < 128 :=
          fun _ => readPair_eq_some_iff
        have hread := (hpair _).mpr ⟨rfl, Nat.not_le.mp hlong⟩
        exact ⟨_, (Except.ok.inj hblock).symm, rfl, hread, fun other h => ((hpair other).mp h).1⟩
  · have hrun : ecdsaRawToDer sizeBits true raw keyBits = some (.error .invalidArg) := by
      rw [ecdsaRawToDer, hn]
      by_cases hzero : raw.length = 0 ∨ keyBits = 0
      · exact if_pos hzero
      · rw [if_neg hzero, if_pos hlen]
    refine ⟨_, hrun, ?_, ?_⟩
    · simp [hlen]
    · intro block hblock
      cases hblock

/-- A number with its highest bit set, and zero. -/
theorem ecdsaRawToDer_spec_oneByte :
    ecdsaRawToDer 32 true [0x80, 0] 8 = some (.ok ([48, 7, 2, 2, 0, 0x80, 2, 1, 0].map some)) ∧
      readPair [48, 7, 2, 2, 0, 0x80, 2, 1, 0] = some (128, 0) := by
  have hrun : ecdsaRawToDer 32 true [0x80, 0] 8
      = some (.ok ([48, 7, 2, 2, 0, 0x80, 2, 1, 0].map some)) := by
    rfl
  obtain ⟨result, hresult, -, hok⟩ :=
    ecdsaRawToDer_spec [0x80, 0] (by decide : 8 ≠ 0) (by decide : 8 + 7 < 2 ^ 32)
  obtain ⟨der, hder, -, hread, -⟩ := hok _ (Option.some.inj (hresult.symm.trans hrun))
  have hder' : [48, 7, 2, 2, 0, 0x80, 2, 1, 0] = der :=
    List.map_injective_iff.mpr (Option.some_injective _) hder
  rw [hder']
  exact ⟨hder' ▸ hrun, hread⟩

end RainMakerNeo.Common
