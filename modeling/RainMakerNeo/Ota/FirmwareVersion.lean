import Mathlib.Data.Prod.Lex
import RainMakerNeo.Ota.JobsMachine

/-!
# `RainMakerNeo.Ota.FirmwareVersion`: the number of a version string

A firmware version is written as `x.y`, as `x.y.z`, or as `x.y.z` with a dot and anything behind
it. `VersionText` says so, as a relation between a string and its triple. The theorems:

* `scanVersion_digits`: the loop over one run of digits. It fails as soon as the number that the
  run spells is above 1023.
* `scanVersion_field`: what the loop did with one field, read off an accepting run.
* `defaultVersionToUint32_eq_some`: the strings that are accepted are the texts, and the result
  packs the triple.
* `packVersion_lt` / `packVersion_inj`: packed triples compare as the triples do.
-/

set_option autoImplicit false

namespace RainMakerNeo.Ota.Jobs

/-! ### Texts and triples -/

/-- A version as it is compared: major, then minor, then patch. -/
abbrev VersionTriple := ℕ ×ₗ ℕ ×ₗ ℕ

/-- The triple with these parts. -/
def versionTriple (x y z : Nat) : VersionTriple :=
  toLex (x, toLex (y, z))

/-- The number that a decimal field spells. -/
def fieldValue (digits : List Char) : Nat :=
  Nat.ofDigitChars 10 digits 0

/-- A non-empty decimal field of at most 1023. -/
structure IsVersionField (digits : List Char) : Prop where
  nonempty : digits ≠ []
  decimal : ∀ c ∈ digits, '0' ≤ c ∧ c ≤ '9'
  small : fieldValue digits ≤ 1023

/-- The version strings, each with its triple. -/
inductive VersionText : List Char → VersionTriple → Prop
  | short {x y : List Char} (hx : IsVersionField x) (hy : IsVersionField y) :
      VersionText (x ++ '.' :: y) (versionTriple (fieldValue x) (fieldValue y) 0)
  | full {x y z : List Char} (hx : IsVersionField x) (hy : IsVersionField y)
      (hz : IsVersionField z) :
      VersionText (x ++ '.' :: (y ++ '.' :: z))
        (versionTriple (fieldValue x) (fieldValue y) (fieldValue z))
  | trailing {x y z : List Char} (hx : IsVersionField x) (hy : IsVersionField y)
      (hz : IsVersionField z) (rest : List Char) :
      VersionText (x ++ '.' :: (y ++ '.' :: (z ++ '.' :: rest)))
        (versionTriple (fieldValue x) (fieldValue y) (fieldValue z))

/-! ### The loop over one field -/

/-- The digits of a run go to the field that the loop is in. -/
def VersionScan.read (scan : VersionScan) (digits : List Char) : VersionScan :=
  digits.foldl (fun scan c => scan.digit (c.toNat - '0'.toNat)) scan

/-- The field that the loop is in holds this number. -/
def VersionScan.store (scan : VersionScan) (value : Nat) : VersionScan :=
  match scan.fieldIdx with
  | 0 => { scan with major := value }
  | 1 => { scan with minor := value }
  | _ => { scan with patch := value }

@[simp] theorem VersionScan.read_nil (scan : VersionScan) : scan.read [] = scan := rfl

@[simp] theorem VersionScan.read_cons (scan : VersionScan) (c : Char) (digits : List Char) :
    scan.read (c :: digits) = (scan.digit (c.toNat - '0'.toNat)).read digits := rfl

/-- A digit stores ten times the field and the digit. -/
theorem VersionScan.digit_eq (scan : VersionScan) (d : Nat) :
    scan.digit d = { scan.store (10 * scan.field + d) with fieldHasDigit := true } := by
  obtain ⟨major, minor, patch, fieldIdx, fieldHasDigit⟩ := scan
  match fieldIdx with
  | 0 => simp [VersionScan.digit, VersionScan.store, VersionScan.field, Nat.mul_comm]
  | 1 => simp [VersionScan.digit, VersionScan.store, VersionScan.field, Nat.mul_comm]
  | _ + 2 => simp [VersionScan.digit, VersionScan.store, VersionScan.field, Nat.mul_comm]

@[simp] theorem VersionScan.field_digit (scan : VersionScan) (d : Nat) :
    (scan.digit d).field = 10 * scan.field + d := by
  obtain ⟨major, minor, patch, fieldIdx, fieldHasDigit⟩ := scan
  match fieldIdx with
  | 0 => simp [VersionScan.digit, VersionScan.field, Nat.mul_comm]
  | 1 => simp [VersionScan.digit, VersionScan.field, Nat.mul_comm]
  | _ + 2 => simp [VersionScan.digit, VersionScan.field, Nat.mul_comm]

/-- The last number stored in a field is the one that stays. -/
theorem VersionScan.store_digit (scan : VersionScan) (d value : Nat) :
    (scan.digit d).store value = { scan.store value with fieldHasDigit := true } := by
  obtain ⟨major, minor, patch, fieldIdx, fieldHasDigit⟩ := scan
  match fieldIdx with
  | 0 => rfl
  | 1 => rfl
  | _ + 2 => rfl

/-- A run of digits leaves the field with the number that it spells behind the old one. -/
theorem VersionScan.field_read (scan : VersionScan) (digits : List Char) :
    (scan.read digits).field = Nat.ofDigitChars 10 digits scan.field := by
  induction digits generalizing scan with
  | nil => simp
  | cons c digits ih => simp [ih, Nat.ofDigitChars_cons]

variable {digits text : List Char} {t : VersionTriple}

/-- A non-empty run stores that number, and the field has a digit. -/
theorem VersionScan.read_eq (scan : VersionScan) (hne : digits ≠ []) :
    scan.read digits
      = { scan.store (Nat.ofDigitChars 10 digits scan.field) with fieldHasDigit := true } := by
  -- Each digit overwrites the field, so only the last store is left.
  induction digits generalizing scan with
  | nil => exact absurd rfl hne
  | cons c digits ih =>
    rw [VersionScan.read_cons, Nat.ofDigitChars_cons]
    cases digits with
    | nil => simp [VersionScan.digit_eq]
    | cons c' digits =>
      rw [ih _ (by simp), VersionScan.field_digit, VersionScan.store_digit]

/-- More digits do not make the number smaller. -/
theorem le_ofDigitChars (digits : List Char) (n : Nat) : n ≤ Nat.ofDigitChars 10 digits n := by
  rw [Nat.ofDigitChars_eq_ofDigitChars_zero]
  have hpos : 1 ≤ 10 ^ digits.length := Nat.one_le_pow _ _ (by omega)
  calc n = 1 * n := (Nat.one_mul n).symm
    _ ≤ 10 ^ digits.length * n := Nat.mul_le_mul_right n hpos
    _ ≤ _ := Nat.le_add_right _ _

/-- The dot is no digit. -/
theorem ne_dot_of_digit {c : Char} (hc : '0' ≤ c ∧ c ≤ '9') : c ≠ '.' := by
  rintro rfl
  exact absurd hc (by decide)

/-- The loop over a run of digits goes on behind it if the number stays in its ten bits, and
fails otherwise. -/
theorem scanVersion_digits (rest : List Char) (scan : VersionScan)
    (hdigits : ∀ c ∈ digits, '0' ≤ c ∧ c ≤ '9') (hfield : scan.field ≤ 1023) :
    scanVersion (digits ++ rest) scan
      = if (scan.read digits).field ≤ 1023 then scanVersion rest (scan.read digits)
        else none := by
  induction digits generalizing scan with
  | nil => simp [hfield]
  | cons c digits ih =>
    have hc : '0' ≤ c ∧ c ≤ '9' := hdigits c (by simp)
    have htail : ∀ c ∈ digits, '0' ≤ c ∧ c ≤ '9' := fun c h => hdigits c (by simp [h])
    rw [List.cons_append, scanVersion, if_neg (ne_dot_of_digit hc), if_pos hc,
      VersionScan.read_cons]
    by_cases hlarge : (scan.digit (c.toNat - '0'.toNat)).field > 1023
    · -- The digits behind it cannot bring the number back below the limit.
      have hread : ¬ ((scan.digit (c.toNat - '0'.toNat)).read digits).field ≤ 1023 := by
        rw [VersionScan.field_read]
        have := le_ofDigitChars digits (scan.digit (c.toNat - '0'.toNat)).field
        omega
      rw [if_neg hread]
      exact if_pos hlarge
    · rw [← ih _ htail (by omega)]
      exact if_neg hlarge

/-- The same for a field: the loop reads it and goes on. -/
theorem IsVersionField.scan (h : IsVersionField digits) (rest : List Char) {scan : VersionScan}
    (hfield : scan.field = 0) :
    scanVersion (digits ++ rest) scan
      = scanVersion rest { scan.store (fieldValue digits) with fieldHasDigit := true } := by
  have hread : (scan.read digits).field = fieldValue digits := by
    rw [VersionScan.field_read, hfield, fieldValue]
  rw [scanVersion_digits rest scan h.decimal (by omega), if_pos (hread ▸ h.small),
    VersionScan.read_eq scan h.nonempty, hfield, fieldValue]

/-- A list is its leading digits and what is behind them. -/
theorem exists_digits_append (text : List Char) :
    ∃ digits rest, text = digits ++ rest ∧ (∀ c ∈ digits, '0' ≤ c ∧ c ≤ '9')
      ∧ ∀ c ∈ rest.head?, ¬ ('0' ≤ c ∧ c ≤ '9') := by
  induction text with
  | nil => exact ⟨[], [], rfl, by simp, by simp⟩
  | cons c text ih =>
    by_cases hc : '0' ≤ c ∧ c ≤ '9'
    · obtain ⟨digits, rest, rfl, hdigits, hrest⟩ := ih
      refine ⟨c :: digits, rest, rfl, ?_, hrest⟩
      intro d hd
      rcases List.mem_cons.mp hd with rfl | hd
      · exact hc
      · exact hdigits d hd
    · exact ⟨[], c :: text, rfl, by simp, by simpa using hc⟩

/-- One field of an accepting run of the loop: it ran out of text before any digit, or it read a
field that ends with the text or at a dot. -/
theorem scanVersion_field {scan out : VersionScan} (hfresh : scan.fieldHasDigit = false)
    (hfield : scan.field = 0) (hscan : scanVersion text scan = some out) :
    out.fieldHasDigit = false ∧ out = scan ∨
      ∃ digits, IsVersionField digits ∧
        ((text = digits ∧ out = { scan.store (fieldValue digits) with fieldHasDigit := true }) ∨
          ∃ rest, text = digits ++ '.' :: rest ∧
            scanVersion ('.' :: rest)
              { scan.store (fieldValue digits) with fieldHasDigit := true } = some out) := by
  obtain ⟨digits, rest, rfl, hdigits, hrest⟩ := exists_digits_append text
  by_cases hne : digits = []
  · -- Without a digit only the empty text is accepted: a dot needs a digit before it.
    left
    subst hne
    cases rest with
    | nil =>
      have hout : scan = out := Option.some.inj hscan
      exact ⟨hout ▸ hfresh, hout.symm⟩
    | cons c rest =>
      rw [List.nil_append, scanVersion, if_neg (hrest c rfl)] at hscan
      by_cases hdot : c = '.'
      · rw [if_pos hdot, if_pos hfresh] at hscan
        exact absurd hscan (by nofun)
      · rw [if_neg hdot] at hscan
        exact absurd hscan (by nofun)
  · right
    -- The loop checks the limit at every digit, and it got through.
    have hsmall : fieldValue digits ≤ 1023 := by
      rw [scanVersion_digits rest scan hdigits (by omega), VersionScan.field_read, hfield] at hscan
      by_contra hlarge
      rw [if_neg (show ¬ Nat.ofDigitChars 10 digits 0 ≤ 1023 from hlarge)] at hscan
      exact absurd hscan (by nofun)
    have hdecimal : IsVersionField digits := ⟨hne, hdigits, hsmall⟩
    rw [hdecimal.scan rest hfield] at hscan
    refine ⟨digits, hdecimal, ?_⟩
    cases rest with
    | nil => exact .inl ⟨by simp, (Option.some.inj hscan).symm⟩
    | cons c rest =>
      have hdot : c = '.' := by
        by_contra hdot
        rw [scanVersion, if_neg hdot, if_neg (hrest c rfl)] at hscan
        exact absurd hscan (by nofun)
      subst hdot
      exact .inr ⟨rest, rfl, hscan⟩

/-! ### The strings that are accepted -/

/-- `version_num`: ten bits for each part. -/
def packVersion (x y z : Nat) : UInt32 :=
  UInt32.ofNat x <<< 20 ||| UInt32.ofNat y <<< 10 ||| UInt32.ofNat z

/-- The number of a triple. -/
def VersionTriple.number (t : VersionTriple) : UInt32 :=
  packVersion (ofLex t).1 (ofLex (ofLex t).2).1 (ofLex (ofLex t).2).2

/-- The result of the conversion, once the loop is through. -/
theorem defaultVersionToUint32_of_scan {out : VersionScan}
    (hscan : scanVersion text {} = some out) (hidx : 1 ≤ out.fieldIdx)
    (hdigit : out.fieldHasDigit = true) :
    defaultVersionToUint32 text = some (packVersion out.major out.minor out.patch) := by
  have hend : ¬ (out.fieldIdx < 1 ∨ out.fieldHasDigit = false) := by
    rw [hdigit]
    simp only [Bool.true_eq_false, or_false]
    omega
  rw [defaultVersionToUint32, hscan]
  exact if_neg hend

/-- The loop after the first dot. -/
theorem scanVersion_dot_zero (major : Nat) (rest : List Char) :
    scanVersion ('.' :: rest) { major := major, fieldHasDigit := true }
      = scanVersion rest { major := major, fieldIdx := 1 } := by
  rw [scanVersion]
  rfl

/-- The loop after the second dot. -/
theorem scanVersion_dot_one (major minor : Nat) (rest : List Char) :
    scanVersion ('.' :: rest)
        { major := major, minor := minor, fieldIdx := 1, fieldHasDigit := true }
      = scanVersion rest { major := major, minor := minor, fieldIdx := 2 } := by
  rw [scanVersion]
  rfl

/-- The third dot ends the loop, whatever is behind it. -/
theorem scanVersion_dot_two (major minor patch : Nat) (rest : List Char) :
    scanVersion ('.' :: rest)
        { major := major, minor := minor, patch := patch, fieldIdx := 2, fieldHasDigit := true }
      = some { major := major, minor := minor, patch := patch, fieldIdx := 2,
               fieldHasDigit := true } := by
  rw [scanVersion]
  rfl

/-- A text is accepted, and its number packs its triple. -/
theorem VersionText.number_eq (h : VersionText text t) :
    defaultVersionToUint32 text = some t.number := by
  induction h with
  | @short x y hx hy =>
    have hend := @defaultVersionToUint32_of_scan (x ++ '.' :: y)
      ⟨fieldValue x, fieldValue y, 0, 1, true⟩
    refine hend ?_ (Nat.le_refl 1) rfl
    rw [hx.scan _ rfl]
    show scanVersion ('.' :: y) { major := fieldValue x, fieldHasDigit := true } = _
    rw [scanVersion_dot_zero, ← List.append_nil y, hy.scan _ rfl, List.append_nil]
    rfl
  | @full x y z hx hy hz =>
    have hend := @defaultVersionToUint32_of_scan (x ++ '.' :: (y ++ '.' :: z))
      ⟨fieldValue x, fieldValue y, fieldValue z, 2, true⟩
    refine hend ?_ (Nat.le_succ 1) rfl
    rw [hx.scan _ rfl]
    show scanVersion ('.' :: (y ++ '.' :: z)) { major := fieldValue x, fieldHasDigit := true } = _
    rw [scanVersion_dot_zero, hy.scan _ rfl]
    show scanVersion ('.' :: z)
      { major := fieldValue x, minor := fieldValue y, fieldIdx := 1, fieldHasDigit := true } = _
    rw [scanVersion_dot_one, ← List.append_nil z, hz.scan _ rfl, List.append_nil]
    rfl
  | @trailing x y z hx hy hz rest =>
    have hend := @defaultVersionToUint32_of_scan (x ++ '.' :: (y ++ '.' :: (z ++ '.' :: rest)))
      ⟨fieldValue x, fieldValue y, fieldValue z, 2, true⟩
    refine hend ?_ (Nat.le_succ 1) rfl
    rw [hx.scan _ rfl]
    show scanVersion ('.' :: (y ++ '.' :: (z ++ '.' :: rest)))
      { major := fieldValue x, fieldHasDigit := true } = _
    rw [scanVersion_dot_zero, hy.scan _ rfl]
    show scanVersion ('.' :: (z ++ '.' :: rest))
      { major := fieldValue x, minor := fieldValue y, fieldIdx := 1, fieldHasDigit := true } = _
    rw [scanVersion_dot_one, hz.scan _ rfl]
    exact scanVersion_dot_two _ _ _ rest

/-- Only texts are accepted. -/
theorem versionText_of_some {number : UInt32} (h : defaultVersionToUint32 text = some number) :
    ∃ t, VersionText text t := by
  rw [defaultVersionToUint32] at h
  cases hscan : scanVersion text {} with
  | none =>
    rw [hscan] at h
    exact absurd h (by nofun)
  | some out =>
    rw [hscan] at h
    have hend : ¬ (out.fieldIdx < 1 ∨ out.fieldHasDigit = false) := by
      intro hend
      exact absurd ((if_pos hend).symm.trans h) (by nofun)
    have hdigit : out.fieldHasDigit ≠ false := fun hno => hend (.inr hno)
    -- Field by field: a text that ends without a digit in its last field is out.
    rcases scanVersion_field rfl rfl hscan with ⟨hno, -⟩ | ⟨x, hx, ⟨-, hout⟩ | ⟨rest, rfl, hx'⟩⟩
    · exact absurd hno hdigit
    · refine absurd (.inl ?_) hend
      rw [hout]
      exact Nat.zero_lt_one
    have hminor := (scanVersion_dot_zero (fieldValue x) rest).symm.trans hx'
    rcases scanVersion_field rfl rfl hminor with ⟨hno, -⟩ | ⟨y, hy, ⟨rfl, -⟩ | ⟨rest, rfl, hy'⟩⟩
    · exact absurd hno hdigit
    · exact ⟨_, .short hx hy⟩
    have hpatch := (scanVersion_dot_one (fieldValue x) (fieldValue y) rest).symm.trans hy'
    rcases scanVersion_field rfl rfl hpatch with ⟨hno, -⟩ | ⟨z, hz, ⟨rfl, -⟩ | ⟨rest, rfl, -⟩⟩
    · exact absurd hno hdigit
    · exact ⟨_, .full hx hy hz⟩
    · exact ⟨_, .trailing hx hy hz rest⟩

/-- The strings that are accepted are the texts, and the result packs the triple. -/
theorem defaultVersionToUint32_eq_some {number : UInt32} :
    defaultVersionToUint32 text = some number ↔
      ∃ t, VersionText text t ∧ number = t.number := by
  constructor
  · intro h
    obtain ⟨t, ht⟩ := versionText_of_some h
    exact ⟨t, ht, Option.some.inj (h.symm.trans ht.number_eq)⟩
  · rintro ⟨t, ht, rfl⟩
    exact ht.number_eq

/-- What is no text is not accepted. -/
theorem defaultVersionToUint32_eq_none :
    defaultVersionToUint32 text = none ↔ ∀ t, ¬ VersionText text t := by
  rw [Option.eq_none_iff_forall_ne_some]
  constructor
  · intro h t ht
    exact h _ ht.number_eq
  · intro h number hnumber
    obtain ⟨t, ht⟩ := versionText_of_some hnumber
    exact h t ht

/-! ### The order -/

/-- The triples whose parts fit their ten bits. -/
def VersionTriple.Fits (t : VersionTriple) : Prop :=
  (ofLex t).1 ≤ 1023 ∧ (ofLex (ofLex t).2).1 ≤ 1023 ∧ (ofLex (ofLex t).2).2 ≤ 1023

/-- The triple of a text fits. -/
theorem VersionText.fits (h : VersionText text t) : t.Fits := by
  cases h with
  | short hx hy => exact ⟨hx.small, hy.small, Nat.zero_le _⟩
  | full hx hy hz => exact ⟨hx.small, hy.small, hz.small⟩
  | trailing hx hy hz => exact ⟨hx.small, hy.small, hz.small⟩

/-- With parts of ten bits each, the shifted words do not overlap. -/
theorem toNat_packVersion {x y z : Nat} (hx : x ≤ 1023) (hy : y ≤ 1023) (hz : z ≤ 1023) :
    (packVersion x y z).toNat = x * 2 ^ 20 + (y * 2 ^ 10 + z) := by
  have hyz : (y <<< 10 ||| z) = y * 2 ^ 10 + z := by
    rw [← Nat.shiftLeft_add_eq_or_of_lt (by omega), Nat.shiftLeft_eq]
  have hor : (x <<< 20 ||| y <<< 10 ||| z) = x * 2 ^ 20 + (y * 2 ^ 10 + z) := by
    rw [Nat.or_assoc, hyz, ← Nat.shiftLeft_add_eq_or_of_lt (by omega), Nat.shiftLeft_eq]
  -- Thirty bits of the word are used, so no shift drops a bit.
  have hlarge : x <<< 20 < 2 ^ 32 ∧ y <<< 10 < 2 ^ 32 := by
    simp only [Nat.shiftLeft_eq]
    omega
  rw [← hor, packVersion]
  simp only [UInt32.toNat_or, UInt32.toNat_shiftLeft, UInt32.toNat_ofNat']
  rw [Nat.mod_eq_of_lt (show x < 2 ^ 32 by omega), Nat.mod_eq_of_lt (show y < 2 ^ 32 by omega),
    Nat.mod_eq_of_lt (show z < 2 ^ 32 by omega)]
  rw [show UInt32.toNat 20 % 32 = 20 from rfl, show UInt32.toNat 10 % 32 = 10 from rfl,
    Nat.mod_eq_of_lt hlarge.1, Nat.mod_eq_of_lt hlarge.2]

variable {s : VersionTriple}

/-- A smaller triple comes before. -/
theorem VersionTriple.lt_iff :
    s < t ↔ (ofLex s).1 < (ofLex t).1 ∨ (ofLex s).1 = (ofLex t).1 ∧
      ((ofLex (ofLex s).2).1 < (ofLex (ofLex t).2).1 ∨
        (ofLex (ofLex s).2).1 = (ofLex (ofLex t).2).1 ∧
          (ofLex (ofLex s).2).2 < (ofLex (ofLex t).2).2) := by
  rw [Prod.Lex.lt_iff, Prod.Lex.lt_iff]

/-- The numbers of triples compare as the triples do: the parts are the digits of the number in
base 1024. -/
theorem VersionTriple.number_lt (hs : s.Fits) (ht : t.Fits) : s.number < t.number ↔ s < t := by
  rw [UInt32.lt_iff_toNat_lt, VersionTriple.number, VersionTriple.number,
    toNat_packVersion hs.1 hs.2.1 hs.2.2, toNat_packVersion ht.1 ht.2.1 ht.2.2,
    VersionTriple.lt_iff]
  obtain ⟨hs₁, hs₂, hs₃⟩ := hs
  obtain ⟨ht₁, ht₂, ht₃⟩ := ht
  omega

/-- So do they for the other direction of the comparison. -/
theorem VersionTriple.number_le (hs : s.Fits) (ht : t.Fits) : s.number ≤ t.number ↔ s ≤ t := by
  rw [← UInt32.not_lt, VersionTriple.number_lt ht hs, not_lt]

/-- Different triples have different numbers. -/
theorem VersionTriple.number_inj (hs : s.Fits) (ht : t.Fits) : s.number = t.number ↔ s = t := by
  constructor
  · intro h
    have hst : s ≤ t := by
      rw [← VersionTriple.number_le hs ht, h]
      exact UInt32.le_refl _
    have hts : t ≤ s := by
      rw [← VersionTriple.number_le ht hs, h]
      exact UInt32.le_refl _
    exact le_antisymm hst hts
  · rintro rfl
    rfl

/-! ### The decision on a document -/

/-- The conversion of the default handler is the one above. -/
theorem versionNumber_default (cfg : Config) (text : List Char) :
    cfg.versionNumber defaultFtCtx text = defaultVersionToUint32 text := rfl

/-- A text is not empty. -/
theorem VersionText.ne_nil (h : VersionText text t) : text ≠ [] := by
  cases h <;> simp

section Decision

variable {cfg : Config} {env : Env} {custom : CustomFields} {current : List Char}
  {v w : VersionTriple}

/-- The comparison on a device of version `v`, with a document of version `w`. -/
theorem compareVersions_default (hcurrent : env.currentVersion = some current)
    (hv : VersionText current v) (hw : VersionText custom.fwVersion w) :
    compareVersions cfg env defaultFtCtx custom
      = if w ≤ v then .error (.reject "Firmware version too low")
        else if custom.minFwVersion = [] then .ok w.number
        else match defaultVersionToUint32 custom.minFwVersion with
          | none => .error .ignore
          | some minimum => if minimum > v.number then .error .ignore else .ok w.number := by
  rw [compareVersions, if_neg (show ¬ defaultFtCtx.hasGetVersion = false by decide),
    if_neg hw.ne_nil, hcurrent, Option.bind_some, versionNumber_default, versionNumber_default,
    versionNumber_default, hv.number_eq, hw.number_eq]
  by_cases hle : w ≤ v
  · rw [if_pos hle]
    exact if_pos ((VersionTriple.number_le hw.fits hv.fits).mpr hle)
  · rw [if_neg hle]
    exact if_neg fun h => hle ((VersionTriple.number_le hw.fits hv.fits).mp h)

/-- A document that is not newer is rejected for that, and no other. -/
theorem compareVersions_tooLow (hcurrent : env.currentVersion = some current)
    (hv : VersionText current v) (hw : VersionText custom.fwVersion w) :
    compareVersions cfg env defaultFtCtx custom = .error (.reject "Firmware version too low") ↔
      w ≤ v := by
  rw [compareVersions_default hcurrent hv hw]
  by_cases hle : w ≤ v
  · simp [hle]
  · rw [if_neg hle]
    -- The minimum can only make the document be ignored.
    refine iff_of_false ?_ hle
    by_cases hmin : custom.minFwVersion = []
    · simp [hmin]
    · rw [if_neg hmin]
      cases defaultVersionToUint32 custom.minFwVersion with
      | none => simp
      | some minimum =>
        by_cases hlarge : minimum > v.number
        · simp [hlarge]
        · simp [hlarge]

/-- A newer document goes on if it asks for no version above the device's. -/
theorem compareVersions_ok (hcurrent : env.currentVersion = some current)
    (hv : VersionText current v) (hw : VersionText custom.fwVersion w) :
    compareVersions cfg env defaultFtCtx custom = .ok w.number ↔
      v < w ∧ (custom.minFwVersion = [] ∨ ∃ u, VersionText custom.minFwVersion u ∧ u ≤ v) := by
  rw [compareVersions_default hcurrent hv hw]
  by_cases hle : w ≤ v
  · simp [hle, not_lt.mpr hle]
  rw [if_neg hle]
  by_cases hmin : custom.minFwVersion = []
  · simp [hmin, not_le.mp hle]
  rw [if_neg hmin]
  cases hnum : defaultVersionToUint32 custom.minFwVersion with
  | none =>
    have hno := defaultVersionToUint32_eq_none.mp hnum
    simp [hmin, hno]
  | some minimum =>
    obtain ⟨u, hu, rfl⟩ := defaultVersionToUint32_eq_some.mp hnum
    -- A string has one triple at most, since the number gives the triple back.
    have hunique : (∃ u', VersionText custom.minFwVersion u' ∧ u' ≤ v) ↔ u ≤ v := by
      constructor
      · rintro ⟨u', hu', hle'⟩
        have heq : u' = u := (VersionTriple.number_inj hu'.fits hu.fits).mp
          (Option.some.inj (hu'.number_eq.symm.trans hnum))
        exact heq ▸ hle'
      · exact fun h => ⟨u, hu, h⟩
    have hlarge : u.number > v.number ↔ ¬ u ≤ v :=
      (VersionTriple.number_lt hv.fits hu.fits).trans not_le.symm
    rw [hunique]
    by_cases huv : u ≤ v
    · simp [huv, not_le.mp hle, show ¬ u.number > v.number from fun h => hlarge.mp h huv]
    · simp [huv, hmin, hlarge.mpr huv]

end Decision

/-- `__default_version_to_uint32` accepts the version texts and no other strings; the numbers
compare as the triples do, and so does the state machine: on a device whose version text is
`current`, a document of the default handler is rejected as too low exactly if its triple is not
above, and goes on exactly if it is above and the minimum it asks for, if any, is not. -/
theorem versionNumbers_order :
    (∀ text, (∃ number, defaultVersionToUint32 text = some number) ↔ ∃ t, VersionText text t) ∧
    (∀ a b s t m n, VersionText a s → VersionText b t → defaultVersionToUint32 a = some m →
      defaultVersionToUint32 b = some n → (m < n ↔ s < t) ∧ (m = n ↔ s = t)) ∧
    ∀ (cfg : Config) (env : Env) (custom : CustomFields) current v w,
      env.currentVersion = some current → VersionText current v →
      VersionText custom.fwVersion w →
      (compareVersions cfg env defaultFtCtx custom = .error (.reject "Firmware version too low") ↔
        w ≤ v) ∧
      (compareVersions cfg env defaultFtCtx custom = .ok w.number ↔
        v < w ∧ (custom.minFwVersion = [] ∨ ∃ u, VersionText custom.minFwVersion u ∧ u ≤ v)) := by
  refine ⟨?_, ?_, ?_⟩
  · intro text
    constructor
    · rintro ⟨number, h⟩
      exact versionText_of_some h
    · rintro ⟨t, ht⟩
      exact ⟨_, ht.number_eq⟩
  · intro a b s t m n ha hb hm hn
    have hs : m = s.number := Option.some.inj (hm.symm.trans ha.number_eq)
    have ht : n = t.number := Option.some.inj (hn.symm.trans hb.number_eq)
    subst hs ht
    exact ⟨VersionTriple.number_lt ha.fits hb.fits, VersionTriple.number_inj ha.fits hb.fits⟩
  · intro cfg env custom current v w hcurrent hv hw
    exact ⟨compareVersions_tooLow hcurrent hv hw, compareVersions_ok hcurrent hv hw⟩

/-- On a device of version 1.9.7, a document of version 1.10 is newer. -/
theorem versionNumbers_order_minor :
    compareVersions {} { currentVersion := some ['1', '.', '9', '.', '7'] } defaultFtCtx
      { fwVersion := ['1', '.', '1', '0'] } = .ok (versionTriple 1 10 0).number := by
  have hone : IsVersionField ['1'] := ⟨by simp, by simp, by decide⟩
  have hten : IsVersionField ['1', '0'] := ⟨by simp, by simp, by decide⟩
  have hnine : IsVersionField ['9'] := ⟨by simp, by simp, by decide⟩
  have hseven : IsVersionField ['7'] := ⟨by simp, by simp, by decide⟩
  have hcurrent : VersionText ['1', '.', '9', '.', '7'] (versionTriple 1 9 7) :=
    .full hone hnine hseven
  exact (versionNumbers_order.2.2 _ _ _ _ _ _ rfl hcurrent (.short hone hten)).2.mpr
    ⟨by decide, .inl rfl⟩

end RainMakerNeo.Ota.Jobs
