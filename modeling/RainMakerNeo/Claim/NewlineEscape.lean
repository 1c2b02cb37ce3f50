import RainMakerNeo.Claim.Rules
import RainMakerNeo.Lib.Memory

/-!
# `RainMakerNeo.Claim.NewlineEscape`: the two pointer walks over a PEM text

`escapeNewLine` and `unescapeNewLine` of `RainMakerNeo.Claim.Rules` say what text comes out. Here
are the walks themselves, over blocks of memory:

* `escapeNewLineIn_eq`: the walk into the destination writes what `escapeNewLine` says, with NULs
  behind it.
* `unescapeNewLineIn_eq`: the walk in place writes what `unescapeNewLine` says, over the string and
  its NUL. Cells behind the NUL are neither read nor written: the walk ends the same way on a block
  that has none.
* `newLine_round_trip`: which texts are escaped, and that the second walk takes the first one back.

A text has no NUL. The destination has `dst_size` cells, and the two blocks are disjoint.
-/

set_option autoImplicit false

namespace RainMakerNeo.Claim

open RainMakerNeo.Lib

/-- What `claim_rules_escape_new_line` returns. -/
inductive EscapeErr
  | ok | invalidArg | noMem
  deriving DecidableEq

/-- The loop of `claim_rules_escape_new_line`, and whether the text fits. -/
def escapeLoop (limit : Nat) (src : List UInt8) :
    Nat → Nat → Nat → List UInt8 → Option (Bool × List UInt8)
  | 0, _, _, _ => none
  | fuel + 1, str, target, dst => do
    let c ← peek src str
    if c = 0 then
      let dst ← poke dst target 0
      return (true, dst)
    -- there must be room for two characters and the NUL, whatever the character is
    else if limit ≤ target then
      return (false, dst)
    else if c = newline then
      let dst ← poke dst target backslash
      let dst ← poke dst (target + 1) letterN
      escapeLoop limit src fuel (str + 1) (target + 2) dst
    else
      let dst ← poke dst target c
      escapeLoop limit src fuel (str + 1) (target + 1) dst

/-- A newline at the end of the source becomes its NUL. -/
def dropNewlineIn (src : List UInt8) : Option (List UInt8) := do
  let srcLen ← strlen src 0
  if 0 < srcLen then
    let last ← peek src (srcLen - 1)
    if last = newline then poke src (srcLen - 1) 0 else some src
  else some src

/-- `claim_rules_escape_new_line` on its two blocks: the result, the destination and the source. -/
def escapeNewLineIn (dst src : List UInt8) : Option (EscapeErr × List UInt8 × List UInt8) :=
  if dst.length < 3 then some (.invalidArg, dst, src)
  else do
    let zeroed := List.replicate dst.length 0
    let src ← dropNewlineIn src
    let (fits, dst) ← escapeLoop (dst.length - 3) src src.length 0 0 zeroed
    return (if fits then .ok else .noMem, dst, src)

/-- The loop of `claim_rules_unescape_new_line`. -/
def unescapeLoop : Nat → Nat → Nat → List UInt8 → Option (List UInt8)
  | 0, _, _, _ => none
  | fuel + 1, str, target, m => do
    let c ← peek m str
    if c = 0 then poke m target 0
    else if c = backslash then
      let d ← peek m (str + 1)
      -- a backslash at the end of the string is dropped
      if d = 0 then poke m target 0
      else if d = letterN then
        let m ← poke m target newline
        unescapeLoop fuel (str + 2) (target + 1) m
      else
        let m ← poke m target d
        unescapeLoop fuel (str + 2) (target + 1) m
    else
      let m ← poke m target c
      unescapeLoop fuel (str + 1) (target + 1) m

/-- `claim_rules_unescape_new_line` on the block of its string. -/
def unescapeNewLineIn (m : List UInt8) : Option (List UInt8) := unescapeLoop m.length 0 0 m

/-! ### Escaping -/

/-- A text with each newline as two characters. -/
def escaped : List UInt8 → List UInt8
  | [] => []
  | c :: text => if c = newline then backslash :: letterN :: escaped text else c :: escaped text

variable {text : List UInt8}

/-- When the text fits, the loop writes all of it. -/
theorem escapeFrom_of_fits {limit : Nat} {target : Nat}
    (h : (escapeFrom limit target text).2 = true) :
    (escapeFrom limit target text).1 = escaped text := by
  induction text generalizing target with
  | nil => rfl
  | cons c text ih =>
    unfold escapeFrom at h ⊢
    split at h
    · simp at h
    · next hlt =>
      split at h
      · next hc => simpa [hlt, hc, escaped] using ih h
      · next hc => simpa [hlt, hc, escaped] using ih h

/-- A text fits when its escaped form ends before the limit. -/
theorem escapeFrom_fits {limit : Nat} {target : Nat} (h : target + (escaped text).length ≤ limit) :
    (escapeFrom limit target text).2 = true := by
  induction text generalizing target with
  | nil => rfl
  | cons c text ih =>
    unfold escapeFrom
    unfold escaped at h
    split at h
    · next hc =>
      simp only [List.length_cons] at h
      have hlt : ¬ limit ≤ target := by omega
      have hrest : target + 2 + (escaped text).length ≤ limit := by omega
      simpa [hlt, hc] using ih hrest
    · next hc =>
      simp only [List.length_cons] at h
      have hlt : ¬ limit ≤ target := by omega
      have hrest : target + 1 + (escaped text).length ≤ limit := by omega
      simpa [hlt, hc] using ih hrest

/-- An escaped text has no NUL. -/
theorem zero_not_mem_escaped (h : 0 ∉ text) : 0 ∉ escaped text := by
  induction text with
  | nil => simp [escaped]
  | cons c text ih =>
    obtain ⟨hc, htext⟩ : 0 ≠ c ∧ 0 ∉ text := by simpa using h
    have hb : (0 : UInt8) ≠ backslash := by decide
    have hn : (0 : UInt8) ≠ letterN := by decide
    unfold escaped
    split
    · simp [hb, hn, ih htext]
    · simp [hc, ih htext]

section
variable {limit fuel str target : Nat} {src dst : List UInt8} {c : UInt8}

theorem escapeLoop_nul (hread : peek src str = some 0) :
    escapeLoop limit src (fuel + 1) str target dst
      = (poke dst target 0).map fun dst => (true, dst) := by
  rw [escapeLoop, hread, Option.map_eq_bind]
  rfl

theorem escapeLoop_full (hread : peek src str = some c) (hc : c ≠ 0) (hlim : limit ≤ target) :
    escapeLoop limit src (fuel + 1) str target dst = some (false, dst) := by
  simp [escapeLoop, hread, hc, hlim]

theorem escapeLoop_newline (hread : peek src str = some newline) (hlim : ¬ limit ≤ target) :
    escapeLoop limit src (fuel + 1) str target dst
      = (poke dst target backslash).bind fun dst => (poke dst (target + 1) letterN).bind fun dst =>
          escapeLoop limit src fuel (str + 1) (target + 2) dst := by
  simp [escapeLoop, hread, hlim, show newline ≠ 0 by decide]

theorem escapeLoop_char (hread : peek src str = some c) (hc : c ≠ 0) (hn : c ≠ newline)
    (hlim : ¬ limit ≤ target) : escapeLoop limit src (fuel + 1) str target dst
      = (poke dst target c).bind fun dst =>
          escapeLoop limit src fuel (str + 1) (target + 1) dst := by
  simp [escapeLoop, hread, hc, hn, hlim]

end

/-- The loop writes what `escapeFrom` says. The cells that it does not reach stay NULs. -/
theorem escapeLoop_eq {l : Nat} (htext : 0 ∉ text) (rest : List UInt8) {p w : List UInt8}
    {f k : Nat} (hfuel : text.length < f) (hw : w.length ≤ l + 1) (hk : l + 3 ≤ w.length + k) :
    escapeLoop l (p ++ (text ++ 0 :: rest)) f p.length w.length
        (w ++ List.replicate k 0) =
      some ((escapeFrom l w.length text).2, w ++ ((escapeFrom l w.length text).1 ++
        List.replicate (k - (escapeFrom l w.length text).1.length) 0)) := by
  obtain ⟨f, rfl⟩ : ∃ n, f = n + 1 := ⟨f - 1, by omega⟩
  -- the text that is left shrinks, while `p` and `w` are what is read and what is written
  induction text generalizing p w f k with
  | nil =>
    obtain ⟨k, rfl⟩ : ∃ n, k = n + 1 := ⟨k - 1, by omega⟩
    rw [List.nil_append, escapeLoop_nul (peek_at 0 rfl), List.replicate_succ, poke_at 0 0 rfl]
    simp [escapeFrom, List.replicate_succ]
  | cons c text ih =>
    obtain ⟨hc, htext⟩ : 0 ≠ c ∧ 0 ∉ text := by simpa using htext
    obtain ⟨f, rfl⟩ : ∃ n, f = n + 1 := ⟨f - 1, by simp at hfuel; omega⟩
    have hread : peek (p ++ (c :: text ++ 0 :: rest)) p.length = some c := peek_at c rfl
    by_cases hlim : l ≤ w.length
    · rw [escapeLoop_full hread hc.symm hlim]
      simp [escapeFrom, hlim]
    · by_cases hnl : c = newline
      · -- two NULs are overwritten
        obtain ⟨k, rfl⟩ : ∃ n, k = n + 2 := ⟨k - 2, by omega⟩
        have hrest := ih htext (p := p ++ [c]) (w := w ++ [backslash, letterN]) (k := k)
          (by simp; omega) (by simp; omega) f (by simpa using hfuel)
        have hfirst := poke_at (p := w) (q := 0 :: List.replicate k 0) 0 backslash rfl
        have hsecond : poke (w ++ backslash :: 0 :: List.replicate k 0) (w.length + 1) letterN
            = some (w ++ backslash :: letterN :: List.replicate k 0) := by
          simpa using poke_at (p := w ++ [backslash]) (q := List.replicate k 0) 0 letterN rfl
        rw [escapeLoop_newline (hnl ▸ hread) hlim, List.replicate_succ, List.replicate_succ, hfirst,
          Option.bind_some, hsecond, Option.bind_some]
        simpa [escapeFrom, hlim, hnl] using hrest
      · obtain ⟨k, rfl⟩ : ∃ n, k = n + 1 := ⟨k - 1, by omega⟩
        have hrest := ih htext (p := p ++ [c]) (w := w ++ [c]) (k := k)
          (by simp; omega) (by simp; omega) f (by simpa using hfuel)
        rw [escapeLoop_char hread hc.symm hnl hlim, List.replicate_succ, poke_at 0 c rfl,
          Option.bind_some]
        simpa [escapeFrom, hlim, hnl] using hrest

theorem zero_not_mem_dropNewline (h : 0 ∉ text) : 0 ∉ dropNewline text := by
  unfold dropNewline
  split
  · exact fun hmem => h (List.dropLast_subset _ hmem)
  · exact h

/-- Dropping the newline of a stored text. A dropped newline leaves a second NUL. -/
theorem dropNewlineIn_eq (htext : 0 ∉ text) : ∃ rest,
    dropNewlineIn (text ++ [0]) = some (dropNewline text ++ 0 :: rest) ∧
      (dropNewline text).length + rest.length = text.length := by
  have hlen : strlen (text ++ [0]) 0 = some text.length := strlen_at (p := []) htext rfl
  rcases List.eq_nil_or_concat' text with rfl | ⟨front, last, rfl⟩
  · exact ⟨[], by decide, rfl⟩
  · have hread : peek (front ++ [last] ++ [0]) ((front ++ [last]).length - 1) = some last := by
      simpa using peek_at (q := [0]) last (by simp : front.length = front.length)
    by_cases hnl : last = newline
    · have hwrite : poke (front ++ [last] ++ [0]) ((front ++ [last]).length - 1) 0
          = some (front ++ 0 :: [0]) := by
        simpa using poke_at (q := [0]) last 0 (by simp : front.length = front.length)
      refine ⟨[0], ?_, by simp [dropNewline, hnl]⟩
      rw [dropNewlineIn, hlen, Option.bind_eq_bind, Option.bind_some, if_pos (by simp), hread,
        Option.bind_eq_bind, Option.bind_some, if_pos hnl, hwrite]
      simp [dropNewline, hnl]
    · refine ⟨[], ?_, by simp [dropNewline, hnl]⟩
      rw [dropNewlineIn, hlen, Option.bind_eq_bind, Option.bind_some, if_pos (by simp), hread,
        Option.bind_eq_bind, Option.bind_some, if_neg hnl]
      simp [dropNewline, hnl]

/-- The walk into the destination writes what `escapeNewLine` says, and NULs behind it. -/
theorem escapeNewLineIn_eq (dst : List UInt8) (htext : 0 ∉ text) (hdst : 3 ≤ dst.length) : ∃ src,
    escapeNewLineIn dst (text ++ [0]) =
      some (if (escapeNewLine dst.length text).2 then .ok else .noMem,
        (escapeNewLine dst.length text).1 ++
          List.replicate (dst.length - (escapeNewLine dst.length text).1.length) 0, src) := by
  obtain ⟨rest, hdrop, hlen⟩ := dropNewlineIn_eq htext
  have hloop := escapeLoop_eq (l := dst.length - 3) (zero_not_mem_dropNewline htext) rest
    (p := []) (w := []) (f := (dropNewline text ++ 0 :: rest).length) (k := dst.length)
    (by simp) (by simp) (by simp; omega)
  have hsmall : ¬ dst.length < 3 := by omega
  simp only [List.nil_append, List.length_nil] at hloop
  refine ⟨dropNewline text ++ 0 :: rest, ?_⟩
  rw [escapeNewLineIn, if_neg hsmall, hdrop, Option.bind_eq_bind, Option.bind_some, hloop,
    Option.bind_eq_bind, Option.bind_some, escapeNewLine, if_neg hsmall]
  rfl

/-! ### Unescaping -/

section
variable {fuel str target : Nat} {m : List UInt8} {c d : UInt8}

theorem unescapeLoop_nul (hc : peek m str = some 0) :
    unescapeLoop (fuel + 1) str target m = poke m target 0 := by
  simp [unescapeLoop, hc]

theorem unescapeLoop_dangling (hc : peek m str = some backslash) (hd : peek m (str + 1) = some 0) :
    unescapeLoop (fuel + 1) str target m = poke m target 0 := by
  simp [unescapeLoop, hc, hd, show backslash ≠ 0 by decide]

theorem unescapeLoop_escape (hc : peek m str = some backslash) (hd : peek m (str + 1) = some d)
    (hd0 : d ≠ 0) : unescapeLoop (fuel + 1) str target m
      = (poke m target (if d = letterN then newline else d)).bind fun m =>
          unescapeLoop fuel (str + 2) (target + 1) m := by
  by_cases hn : d = letterN
  · simp [unescapeLoop, hc, hd, hn, show backslash ≠ 0 by decide, show letterN ≠ 0 by decide]
  · simp [unescapeLoop, hc, hd, hn, hd0, show backslash ≠ 0 by decide]

theorem unescapeLoop_char (hc : peek m str = some c) (hc0 : c ≠ 0) (hb : c ≠ backslash) :
    unescapeLoop (fuel + 1) str target m
      = (poke m target c).bind fun m => unescapeLoop fuel (str + 1) (target + 1) m := by
  simp [unescapeLoop, hc, hc0, hb]

end

/-- A write at the start of the gap. The gap keeps its length and moves on by one cell. -/
theorem poke_gap (w gap : List UInt8) (c v : UInt8) (after : List UInt8) :
    ∃ gap', gap'.length = gap.length ∧
      poke (w ++ (gap ++ c :: after)) w.length v = some ((w ++ [v]) ++ (gap' ++ after)) := by
  cases gap with
  | nil => exact ⟨[], rfl, by simpa using poke_at c v rfl⟩
  | cons g gap => exact ⟨gap ++ [c], by simp, by simpa using poke_at g v rfl⟩

/-- The NUL goes to the start of the gap. -/
theorem poke_end (w gap after : List UInt8) : ∃ gap', gap'.length = gap.length ∧
    poke (w ++ (gap ++ 0 :: after)) w.length 0 = some (w ++ 0 :: (gap' ++ after)) := by
  obtain ⟨gap', hlen, h⟩ := poke_gap w gap 0 0 after
  exact ⟨gap', hlen, by simpa using h⟩

theorem unescapeNewLine_cons {c : UInt8} (hc : c ≠ backslash) (text : List UInt8) :
    unescapeNewLine (c :: text) = c :: unescapeNewLine text := by
  cases text with
  | nil => simp [unescapeNewLine, hc]
  | cons d text => simp [unescapeNewLine, hc]

/-- The invariant of the walk: what is written, then a gap of cells that are read already, then the
rest of the string. -/
theorem unescapeLoop_eq (htext : 0 ∉ text) (after w gap : List UInt8) {f s target : Nat}
    (hstr : s = w.length + gap.length) (htarget : target = w.length) (hfuel : text.length < f) :
    ∃ rest,
    unescapeLoop f s target (w ++ (gap ++ (text ++ 0 :: after))) =
        some (w ++ (unescapeNewLine text ++ 0 :: (rest ++ after))) ∧
      (unescapeNewLine text).length + rest.length = text.length + gap.length := by
  obtain ⟨f, rfl⟩ : ∃ n, f = n + 1 := ⟨f - 1, by omega⟩
  -- an escape consumes two characters at once, so the induction is on the length
  induction hn : text.length using Nat.strongRecOn generalizing text w gap f s target with
  | ind n ih =>
  subst hn htarget
  cases text with
  | nil =>
    have hread : peek (w ++ (gap ++ ([] ++ 0 :: after))) s = some 0 := by
      simpa using peek_at (p := w ++ gap) (q := after) (i := s) 0 (by simp [hstr])
    obtain ⟨rest, hlen, hwrite⟩ := poke_end w gap after
    rw [unescapeLoop_nul hread]
    exact ⟨rest, hwrite, by simp [unescapeNewLine, hlen]⟩
  | cons c text =>
    obtain ⟨hc, htext⟩ : 0 ≠ c ∧ 0 ∉ text := by simpa using htext
    obtain ⟨f, rfl⟩ : ∃ n, f = n + 1 := ⟨f - 1, by simp at hfuel; omega⟩
    have hread : peek (w ++ (gap ++ (c :: text ++ 0 :: after))) s = some c := by
      simpa using peek_at (p := w ++ gap) (q := text ++ 0 :: after) (i := s) c
        (by simp [hstr])
    by_cases hb : c = backslash
    · subst hb
      cases text with
      | nil =>
        have hnext : peek (w ++ (gap ++ ([backslash] ++ 0 :: after))) (s + 1) = some 0 := by
          simpa using peek_at (p := w ++ gap ++ [backslash]) (q := after) (i := s + 1) 0
            (by simp [hstr]; omega)
        -- the backslash joins the gap
        obtain ⟨rest, hlen, hwrite⟩ := poke_end w (gap ++ [backslash]) after
        rw [unescapeLoop_dangling hread hnext]
        refine ⟨rest, by simpa [unescapeNewLine] using hwrite, ?_⟩
        simp [unescapeNewLine, hlen]
        omega
      | cons d text =>
        obtain ⟨-, hd, htext⟩ : 0 ≠ backslash ∧ 0 ≠ d ∧ 0 ∉ text := by simpa using htext
        have hnext : peek (w ++ (gap ++ (backslash :: d :: text ++ 0 :: after))) (s + 1)
            = some d := by
          simpa using peek_at (p := w ++ gap ++ [backslash]) (q := text ++ 0 :: after)
            (i := s + 1) d (by simp [hstr]; omega)
        -- one character is written and two are read
        obtain ⟨gap', hlen, hwrite⟩ := poke_gap w (gap ++ [backslash]) d
          (if d = letterN then newline else d) (text ++ 0 :: after)
        simp only [List.length_append, List.length_singleton] at hlen
        have hshorter : text.length < (backslash :: d :: text).length := by
          rw [List.length_cons, List.length_cons]
          omega
        obtain ⟨rest, hrest, hcount⟩ := ih text.length hshorter htext
          (w ++ [if d = letterN then newline else d]) gap' (s := s + 2)
          (by rw [List.length_append, List.length_singleton]; omega)
          (by simp : w.length + 1 = _) f (by simp at hfuel; omega) rfl
        rw [unescapeLoop_escape hread hnext hd.symm]
        refine ⟨rest, ?_, ?_⟩
        · simp only [List.append_assoc, List.cons_append, List.nil_append] at hwrite hrest ⊢
          rw [hwrite, Option.bind_some, hrest]
          simp [unescapeNewLine]
        · simp [unescapeNewLine]
          omega
    · -- one character is written and one is read
      obtain ⟨gap', hlen, hwrite⟩ := poke_gap w gap c c (text ++ 0 :: after)
      obtain ⟨rest, hrest, hcount⟩ := ih text.length (by simp) htext (w ++ [c]) gap'
        (s := s + 1) (by simp; omega) (by simp : w.length + 1 = _) f
        (by simp at hfuel; omega) rfl
      rw [unescapeLoop_char hread hc.symm hb, unescapeNewLine_cons hb]
      refine ⟨rest, ?_, ?_⟩
      · simp only [List.append_assoc, List.cons_append, List.nil_append] at hwrite hrest ⊢
        rw [hwrite, Option.bind_some, hrest]
      · simp
        omega

/-- The walk in place writes what `unescapeNewLine` says, over the string and its NUL. The cells
behind stay as they are, and the walk does not look at them. -/
theorem unescapeNewLineIn_eq (htext : 0 ∉ text) (after : List UInt8) : ∃ rest,
    unescapeNewLineIn (text ++ 0 :: after) =
        some (unescapeNewLine text ++ 0 :: (rest ++ after)) ∧
      (unescapeNewLine text).length + rest.length = text.length := by
  have h := unescapeLoop_eq htext after [] [] (f := (text ++ 0 :: after).length) rfl rfl
    (by simp)
  simpa [unescapeNewLineIn] using h

/-- Unescaping takes escaping back. -/
theorem unescapeNewLine_escaped (h : backslash ∉ text) : unescapeNewLine (escaped text) = text := by
  induction text with
  | nil => rfl
  | cons c text ih =>
    obtain ⟨hc, htext⟩ : backslash ≠ c ∧ backslash ∉ text := by simpa using h
    unfold escaped
    split
    · next hnl => simp [unescapeNewLine, hnl, ih htext]
    · rw [unescapeNewLine_cons hc.symm, ih htext]

/-- A text that fits is written as a whole. One that ends behind the destination does not fit, and
one that leaves three cells does. -/
theorem escapeNewLine_fits {n : Nat} (hn : 3 ≤ n) (text : List UInt8) :
    ((escapeNewLine n text).2 = true →
      (escapeNewLine n text).1 = escaped (dropNewline text)) ∧
    ((escaped (dropNewline text)).length + 3 ≤ n → (escapeNewLine n text).2 = true) ∧
    ((escapeNewLine n text).2 = true → (escaped (dropNewline text)).length < n) := by
  have hroom := escapeNewLine_length (by omega : 0 < n) text
  rw [escapeNewLine, if_neg (by omega)] at hroom ⊢
  refine ⟨escapeFrom_of_fits, ?_, ?_⟩
  · intro hlen
    exact escapeFrom_fits (by omega)
  · intro hfits
    rwa [escapeFrom_of_fits hfits] at hroom

/-- Which texts are escaped, and what unescaping makes of the result and of any string: `dst` is the
destination, and `after` is the memory behind a string. -/
theorem newLine_round_trip (text dst after : List UInt8) (htext : 0 ∉ text) :
    (backslash ∉ text → ∃ result dst' src,
      escapeNewLineIn dst (text ++ [0]) = some (result, dst', src) ∧ dst'.length = dst.length ∧
      (result = .ok → ∃ rest rest', dst' = escaped (dropNewline text) ++ 0 :: rest ∧
        unescapeNewLineIn dst' = some (dropNewline text ++ 0 :: rest')) ∧
      ((escaped (dropNewline text)).length + 3 ≤ dst.length → result = .ok) ∧
      (dst.length < (escaped (dropNewline text)).length + 1 → result ≠ .ok)) ∧
    ∃ rest, unescapeNewLineIn (text ++ 0 :: after) =
        some (unescapeNewLine text ++ 0 :: (rest ++ after)) ∧
      (unescapeNewLine text).length + rest.length = text.length := by
  refine ⟨?_, unescapeNewLineIn_eq htext after⟩
  intro hslash
  by_cases hsmall : dst.length < 3
  · refine ⟨.invalidArg, dst, text ++ [0], by simp [escapeNewLineIn, hsmall], rfl, nofun, ?_, nofun⟩
    intro hlen
    omega
  · obtain ⟨src, hrun⟩ := escapeNewLineIn_eq dst htext (by omega)
    obtain ⟨hwhole, hfits, hlt⟩ := escapeNewLine_fits (by omega : 3 ≤ dst.length) text
    have hroom := escapeNewLine_length (by omega : 0 < dst.length) text
    refine ⟨_, _, src, hrun, by simp; omega, ?_, ?_, ?_⟩
    · intro hok
      have hall : (escapeNewLine dst.length text).2 = true := by
        by_contra hcut
        simp [hcut] at hok
      obtain ⟨k, hk⟩ : ∃ k, dst.length - (escaped (dropNewline text)).length = k + 1 := by
        have hlen := hlt hall
        exact ⟨_, (Nat.succ_pred (by omega)).symm⟩
      have hback : backslash ∉ dropNewline text := by
        unfold dropNewline
        split
        · exact fun hmem => hslash (List.dropLast_subset _ hmem)
        · exact hslash
      obtain ⟨rest, hwalk, -⟩ := unescapeNewLineIn_eq
        (zero_not_mem_escaped (zero_not_mem_dropNewline htext)) (List.replicate k 0)
      rw [hwhole hall, hk, List.replicate_succ]
      rw [unescapeNewLine_escaped hback] at hwalk
      exact ⟨_, _, rfl, hwalk⟩
    · intro hlen
      simp [hfits hlen]
    · intro hlen hok
      have hall : (escapeNewLine dst.length text).2 = true := by
        by_contra hcut
        simp [hcut] at hok
      have := hlt hall
      omega

/-- A text with two lines and a newline at its end, in a destination that it just fits. -/
theorem newLine_round_trip_twoLines : ∃ result dst' src,
    escapeNewLineIn (List.replicate 7 255) ([97, 10, 98, 10] ++ [0]) = some (result, dst', src) ∧
      result = .ok ∧ unescapeNewLineIn dst' = some [97, 10, 98, 0, 0, 0, 0] := by
  obtain ⟨result, dst', src, hrun, -, -, hok, -⟩ :=
    (newLine_round_trip [97, 10, 98, 10] (List.replicate 7 255) [] (by decide)).1 (by decide)
  have hres := hok (by decide)
  have hval : escapeNewLineIn (List.replicate 7 255) ([97, 10, 98, 10] ++ [0])
      = some (.ok, [97, 92, 110, 98, 0, 0, 0], [97, 10, 98, 0, 0]) := by decide
  refine ⟨result, dst', src, hrun, hres, ?_⟩
  rw [hval] at hrun
  simp only [Option.some.injEq, Prod.mk.injEq] at hrun
  rw [← hrun.2.1]
  decide

end RainMakerNeo.Claim
