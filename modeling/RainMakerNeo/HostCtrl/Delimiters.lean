import RainMakerNeo.Lib.Buffer
import RainMakerNeo.Lib.Loop
import RainMakerNeo.Lib.Memory

/-!
# `RainMakerNeo.HostCtrl.Delimiters`: the fields of a command from the host

A command is a line. Its handler looks for the delimiters of its payload, puts a NUL in the place
of each, and takes the strings between them as its arguments. The index of that loop is a
`uint8_t` and the length of the payload a `size_t`.

* `steps_chunk` and `returns_of_many` follow the loop up to index 255.
* `framed_iff`: the loop does what its handlers rely on for the payloads of at most 255 bytes, and
  for those that have too many delimiters in their first 256 bytes. On every other payload it does
  not end (`not_returns_of_few`).
-/

set_option autoImplicit false

namespace RainMakerNeo.HostCtrl

open RainMakerNeo.Lib

/-- `RMAKER_HOST_CTRL_DELIMITER_CHAR`. -/
def delimiterChar : UInt8 := 124

/-- `RMAKER_HOST_CTRL_END_CHAR`. -/
def endChar : UInt8 := 13

/-- The size of the buffer in `__esp_rmaker_host_ctrl_task`. -/
def lineBufferSize : Nat := 1024

/-- `osal_ext_io_read_until_sync`: the line that is read, from the bytes that arrive. A line that
fills the buffer is cut. Where the bytes end, the other end has closed. -/
def readUntilSync (maxBufferLength : Nat) (untilChar : UInt8) : List UInt8 → List UInt8 → List UInt8
  | line, [] => line
  | line, byte :: stream =>
    if line.length + 1 = maxBufferLength then line
    -- backspace and delete take back a byte, if there is one
    else if (byte = 8 ∨ byte = 127) ∧ line ≠ [] then
      readUntilSync maxBufferLength untilChar line.dropLast stream
    else if byte = untilChar then line
    else readUntilSync maxBufferLength untilChar (line ++ [byte]) stream

/-- Bytes that are not special are read as they come. -/
theorem readUntilSync_plain {maxBufferLength : Nat} {untilChar : UInt8} {line bytes : List UInt8}
    (hroom : line.length + bytes.length + 1 < maxBufferLength)
    (hplain : ∀ b ∈ bytes, b ≠ 8 ∧ b ≠ 127 ∧ b ≠ untilChar)
    (huntil : untilChar ≠ 8 ∧ untilChar ≠ 127) (rest : List UInt8) :
    readUntilSync maxBufferLength untilChar line (bytes ++ untilChar :: rest) = line ++ bytes := by
  induction bytes generalizing line with
  | nil =>
    simp only [List.length_nil] at hroom
    simp [readUntilSync, huntil, show ¬ line.length + 1 = maxBufferLength by omega]
  | cons b bytes ih =>
    simp only [List.length_cons] at hroom
    obtain ⟨h8, h127, hend⟩ := hplain b (by simp)
    have hmore : (line ++ [b]).length + bytes.length + 1 < maxBufferLength := by
      simp only [List.length_append, List.length_singleton]
      omega
    have hnext := ih hmore fun c hc => hplain c (by simp [hc])
    rw [List.cons_append, readUntilSync]
    simp [h8, h127, hend, hnext, show ¬ line.length + 1 = maxBufferLength by omega]

/-! ### The loop -/

/-- The variables of `esp_rmaker_host_ctrl_find_and_nullify_delimiters`. A pointer into the buffer
is its index. -/
structure Scan where
  i : UInt8
  delimiterCount : UInt8
  buffer : List UInt8
  pDelimiters : List Nat

/-- What the function returns, and what it leaves in the buffer and in the array. -/
structure Found where
  result : Bool
  buffer : List UInt8
  pDelimiters : List Nat

/-- One round of the loop. -/
def scanBody (bufferLength : Nat) (expectedCount : UInt8) (s : Scan) : Option (Next Scan Found) :=
  if s.i.toNat < bufferLength then do
    let c ← peek s.buffer s.i.toNat
    if c = delimiterChar then
      if expectedCount ≤ s.delimiterCount then some (.returned ⟨false, s.buffer, s.pDelimiters⟩)
      else do
        let pDelimiters ← poke s.pDelimiters s.delimiterCount.toNat s.i.toNat
        let buffer ← poke s.buffer s.i.toNat 0
        -- `i + 1` is that of a `uint8_t`, which is 0 behind 255
        some (.goOn ⟨s.i + 1, s.delimiterCount + 1, buffer, pDelimiters⟩)
    else some (.goOn { s with i := s.i + 1 })
  else some (.returned ⟨s.delimiterCount = expectedCount, s.buffer, s.pDelimiters⟩)

/-- `esp_rmaker_host_ctrl_find_and_nullify_delimiters` on a buffer, with the array of the caller. -/
def FindAndNullifyDelimiters (buffer : List UInt8) (pDelimiters : List Nat) (expectedCount : UInt8)
    (r : Found) : Prop :=
  Returns (scanBody buffer.length expectedCount) ⟨0, 0, buffer, pDelimiters⟩ r

/-- The arguments of a handler: the strings from the start of the payload and from behind each
delimiter on. A NUL is behind the payload. -/
def arguments (r : Found) : List (List UInt8) :=
  (0 :: r.pDelimiters.map (· + 1)).map fun start => cString ((r.buffer ++ [0]).drop start)

/-- Each delimiter becomes a NUL, and the other bytes stay. -/
def nullify (buffer : List UInt8) : List UInt8 :=
  buffer.map fun c => if c = delimiterChar then 0 else c

/-- What the handlers rely on. -/
structure Framed (buffer : List UInt8) (expectedCount : UInt8) (r : Found) : Prop where
  result_iff : r.result = true ↔ buffer.count delimiterChar = expectedCount.toNat
  increasing : r.result = true → r.pDelimiters.Pairwise (· < ·)
  positions : r.result = true → ∀ i, i ∈ r.pDelimiters ↔ buffer[i]? = some delimiterChar
  nullified : r.result = true → r.buffer = nullify buffer
  fields : r.result = true →
    arguments r = (buffer.splitOn delimiterChar).map cString

/-! ### Up to index 255 -/

/-- The places of the delimiters, for bytes that start at a place. -/
def positions : Nat → List UInt8 → List Nat
  | _, [] => []
  | k, c :: bytes =>
    if c = delimiterChar then k :: positions (k + 1) bytes else positions (k + 1) bytes

theorem mem_positions {k i : Nat} {bytes : List UInt8} :
    i ∈ positions k bytes ↔ k ≤ i ∧ bytes[i - k]? = some delimiterChar := by
  induction bytes generalizing k with
  | nil => simp [positions]
  | cons c bytes ih =>
    have hcons : i ∈ positions k (c :: bytes) ↔
        (i = k ∧ c = delimiterChar) ∨ i ∈ positions (k + 1) bytes := by
      rw [positions]
      split
      · next hc => simp [hc]
      · next hc => simp [hc]
    rw [hcons, ih]
    rcases Nat.lt_trichotomy i k with hlt | rfl | hgt
    · omega
    · have hlater : ¬ i + 1 ≤ i := by omega
      simp [hlater]
    · have hsub : i - k = i - (k + 1) + 1 := by omega
      have hne : i ≠ k := by omega
      simp [hsub, hne, Nat.le_of_lt hgt, Nat.succ_le_of_lt hgt]

theorem positions_increasing (k : Nat) (bytes : List UInt8) :
    (positions k bytes).Pairwise (· < ·) := by
  induction bytes generalizing k with
  | nil => simp [positions]
  | cons c bytes ih =>
    unfold positions
    split
    · refine List.pairwise_cons.mpr ⟨?_, ih (k + 1)⟩
      intro i hi
      have := (mem_positions.mp hi).1
      omega
    · exact ih (k + 1)

/-- The occurrence of an element that has a given number of others before it. -/
theorem exists_split_of_lt_count {α : Type*} [DecidableEq α] {a : α} {l : List α} {n : Nat}
    (h : n < l.count a) : ∃ front back, l = front ++ a :: back ∧ front.count a = n := by
  induction l generalizing n with
  | nil => simp at h
  | cons x l ih =>
    by_cases hx : x = a
    · subst hx
      cases n with
      | zero => exact ⟨[], l, rfl, rfl⟩
      | succ n =>
        obtain ⟨front, back, hl, hcount⟩ := ih (n := n) (by simpa using h)
        exact ⟨x :: front, back, by simp [hl], by simp [hcount]⟩
    · obtain ⟨front, back, hl, hcount⟩ := ih (n := n) (by simpa [hx] using h)
      exact ⟨x :: front, back, by simp [hl], by simp [hx, hcount]⟩

section
-- of the buffer, `w` is read and `t` is next. Of the array, `d` is filled and `z` is free
variable {n : Nat} {e : UInt8}

theorem scanBody_other {w q : List UInt8} {c : UInt8} {d : List Nat} {i j : UInt8}
    (hi : i.toNat = w.length) (hlt : w.length < n) (hc : c ≠ delimiterChar) :
    scanBody n e ⟨i, j, w ++ c :: q, d⟩ = some (.goOn ⟨i + 1, j, w ++ c :: q, d⟩) := by
  simp [scanBody, hi, hlt, peek_at, hc]

theorem scanBody_delimiter {w q : List UInt8} {d z : List Nat} {x : Nat} {i j : UInt8}
    (hi : i.toNat = w.length) (hlt : w.length < n) (hcount : j.toNat = d.length)
    (hroom : d.length < e.toNat) :
    scanBody n e ⟨i, j, w ++ delimiterChar :: q, d ++ x :: z⟩
      = some (.goOn ⟨i + 1, j + 1, w ++ 0 :: q, d ++ w.length :: z⟩) := by
  have hle : ¬ e ≤ j := by
    rw [UInt8.le_iff_toNat_le]
    omega
  simp [scanBody, hi, hlt, peek_at, poke_at, hle, hcount]

theorem scanBody_many {w q : List UInt8} {d : List Nat} {i j : UInt8}
    (hi : i.toNat = w.length) (hlt : w.length < n) (hle : e ≤ j) :
    scanBody n e ⟨i, j, w ++ delimiterChar :: q, d⟩
      = some (.returned ⟨false, w ++ delimiterChar :: q, d⟩) := by
  simp [scanBody, hi, hlt, peek_at, hle]

/-- The loop passes over bytes that do not have too many delimiters. -/
theorem steps_chunk {w t q : List UInt8} {d z : List Nat}
    (hend : w.length + t.length ≤ 256) (hlen : w.length + t.length ≤ n)
    (hslots : d.length + z.length = e.toNat) (hfew : t.count delimiterChar ≤ z.length) :
    Steps (scanBody n e)
      ⟨.ofNat w.length, .ofNat d.length, w ++ (t ++ q), d ++ z⟩
      ⟨.ofNat (w.length + t.length), .ofNat (d.length + t.count delimiterChar),
        w ++ (nullify t ++ q), d ++ (positions w.length t ++ z.drop (t.count delimiterChar))⟩ := by
  have hexpected := e.toNat_lt
  -- what is read grows by the byte that `t` loses, and what is filled by the slot that `z` loses
  induction t generalizing w d z with
  | nil => simpa [nullify, positions] using Steps.refl _
  | cons c t ih =>
    simp only [List.length_cons] at hend hlen
    have hi : (UInt8.ofNat w.length).toNat = w.length := by
      rw [UInt8.toNat_ofNat']
      omega
    have hcount : (UInt8.ofNat d.length).toNat = d.length := by
      rw [UInt8.toNat_ofNat']
      omega
    by_cases hc : c = delimiterChar
    · subst hc
      simp only [List.count_cons_self] at hfew
      cases z with
      | nil => simp at hfew
      | cons x z =>
        simp only [List.length_cons] at hslots hfew
        have hround := scanBody_delimiter (e := e) (q := t ++ q) (x := x) (z := z) hi
          (by omega : w.length < n) hcount (by omega)
        have hnext := ih (w := w ++ [0]) (d := d ++ [w.length]) (z := z)
          (by simp; omega) (by simp; omega) (by simp; omega) (by omega)
        refine Steps.head hround ?_
        simpa [nullify, positions, Nat.add_assoc, Nat.add_comm 1] using hnext
    · have hround := scanBody_other (e := e) (q := t ++ q) (d := d ++ z) (j := .ofNat d.length) hi
        (by omega : w.length < n) hc
      rw [List.count_cons_of_ne hc] at hfew
      have hnext := ih (w := w ++ [c]) (d := d) (z := z) (by simp; omega) (by simp; omega)
        hslots hfew
      refine Steps.head hround ?_
      simpa [nullify, positions, hc, Nat.add_assoc, Nat.add_comm 1] using hnext

/-- The loop returns at a delimiter too many. -/
theorem returns_of_many {w t q : List UInt8} {d z : List Nat}
    (hend : w.length + t.length ≤ 256) (hlen : w.length + t.length ≤ n)
    (hslots : d.length + z.length = e.toNat) (hmany : z.length < t.count delimiterChar) :
    ∃ r : Found, r.result = false ∧
      Returns (scanBody n e) ⟨.ofNat w.length, .ofNat d.length, w ++ (t ++ q), d ++ z⟩ r := by
  -- up to the first delimiter for which there is no slot
  obtain ⟨front, back, rfl, hcount⟩ := exists_split_of_lt_count hmany
  simp only [List.length_append, List.length_cons] at hend hlen
  have hexpected := e.toNat_lt
  have hsteps := steps_chunk (n := n) (w := w) (t := front) (q := delimiterChar :: back ++ q)
    (by omega) (by omega) hslots (Nat.le_of_eq hcount)
  have hover := scanBody_many (n := n) (e := e) (w := w ++ nullify front) (q := back ++ q)
    (d := d ++ (positions w.length front ++ z.drop (front.count delimiterChar)))
    (i := .ofNat (w.length + front.length)) (j := .ofNat (d.length + front.count delimiterChar))
    (by simp [nullify]; omega) (by simp [nullify]; omega)
    (by rw [UInt8.le_iff_toNat_le, UInt8.toNat_ofNat']; omega)
  have hreturns := Returns.stop hover
  simp only [List.append_assoc, List.cons_append] at hsteps hreturns ⊢
  exact ⟨_, rfl, hreturns.of_steps hsteps⟩

end

variable {buffer : List UInt8}

/-- A buffer of at most 255 bytes is scanned to its end. -/
theorem returns_of_short {e : UInt8} {z : List Nat} (hshort : buffer.length ≤ 255)
    (hslots : z.length = e.toNat) (hfew : buffer.count delimiterChar ≤ e.toNat) :
    FindAndNullifyDelimiters buffer z e
      ⟨buffer.count delimiterChar = e.toNat, nullify buffer,
        positions 0 buffer ++ z.drop (buffer.count delimiterChar)⟩ := by
  have hexpected := e.toNat_lt
  have hsteps := steps_chunk (n := buffer.length) (e := e) (w := []) (t := buffer) (q := [])
    (d := []) (z := z) (by simp; omega) (by simp) (by simpa using hslots) (by omega)
  have hi : (UInt8.ofNat buffer.length).toNat = buffer.length := by
    rw [UInt8.toNat_ofNat']
    omega
  have hcount : UInt8.ofNat (buffer.count delimiterChar) = e ↔
      buffer.count delimiterChar = e.toNat := by
    rw [← UInt8.toNat_inj, UInt8.toNat_ofNat', Nat.mod_eq_of_lt (by omega)]
  refine Returns.of_steps (by simpa using hsteps) (.stop ?_)
  simp [scanBody, hi, hcount]

/-- The index can count the bytes before the first wrap. -/
theorem length_chunk (buffer : List UInt8) :
    ([] : List UInt8).length + (buffer.take 256).length ≤ 256 ∧
      ([] : List UInt8).length + (buffer.take 256).length ≤ buffer.length := by
  rw [List.length_nil, List.length_take]
  omega

/-- A long buffer without too many delimiters in its first 256 bytes is scanned for ever. -/
theorem not_returns_of_few {e : UInt8} {z : List Nat} (hlong : 256 ≤ buffer.length)
    (hslots : z.length = e.toNat) (hfew : (buffer.take 256).count delimiterChar ≤ e.toNat)
    (r : Found) : ¬ FindAndNullifyDelimiters buffer z e r := by
  intro hr
  have hend := length_chunk buffer
  have hsteps := steps_chunk (n := buffer.length) (e := e) (w := []) (t := buffer.take 256)
    (q := buffer.drop 256) (d := []) (z := z)
    hend.1 hend.2 (by simpa using hslots) (by omega)
  rw [List.take_append_drop] at hsteps
  have hrest := hr.after_steps hsteps
  -- the index is back at 0, and the first 256 bytes have no delimiter any more
  refine not_returns_of_inv (fun s : Scan => ∀ i < 256, ∃ c, peek s.buffer i = some c ∧
    c ≠ delimiterChar) ?_ ?_ hrest
  · intro s hs
    have hlt := s.i.toNat_lt
    obtain ⟨c, hpeek, hc⟩ := hs s.i.toNat hlt
    refine ⟨{ s with i := s.i + 1 }, ?_, hs⟩
    simp [scanBody, hpeek, hc, show s.i.toNat < buffer.length by omega]
  · intro i hi
    have hlt : i < buffer.length := by omega
    have hget : (nullify (buffer.take 256))[i]? =
        some (if buffer[i] = delimiterChar then 0 else buffer[i]) := by
      simp [nullify, hi, hlt]
    refine ⟨if buffer[i] = delimiterChar then 0 else buffer[i], ?_, ?_⟩
    · rw [peek, List.nil_append, List.getElem?_append_left (by simp [nullify]; omega)]
      exact hget
    · split
      · decide
      · assumption

theorem cString_cons (c : UInt8) (bytes : List UInt8) :
    cString (c :: bytes) = if c = 0 then [] else c :: cString bytes := by
  by_cases hc : c = 0 <;> simp [cString, hc]

/-- The strings behind the first bytes are the fields, each up to a NUL of its own. -/
theorem arguments_nullify (w bytes : List UInt8) :
    (w.length :: (positions w.length bytes).map (· + 1)).map
        (fun start => cString ((w ++ (nullify bytes ++ [0])).drop start)) =
      (bytes.splitOn delimiterChar).map cString := by
  induction bytes generalizing w with
  | nil => simp [positions, nullify, cString]
  | cons c bytes ih =>
    rw [List.splitOn, List.splitOnP_cons_eq_if_modifyHead]
    by_cases hc : c = delimiterChar
    · have hnext := ih (w ++ [0])
      simp only [List.length_append, List.length_singleton, List.append_assoc] at hnext
      simp only [hc, positions, nullify, if_true, List.map_cons, List.cons_append, beq_self_eq_true]
      rw [List.drop_left, ← List.splitOn]
      congr 1
    · have hnext := ih (w ++ [c])
      simp only [List.length_append, List.length_singleton, List.append_assoc] at hnext
      have hsplit := List.splitOnP_ne_nil (· == delimiterChar) bytes
      rw [List.splitOn] at hnext
      obtain ⟨field, fields, hfields⟩ := List.exists_cons_of_ne_nil hsplit
      rw [hfields] at hnext ⊢
      simp [positions, nullify, hc] at hnext ⊢
      refine ⟨?_, hnext.2⟩
      rw [cString_cons, cString_cons, hnext.1]

/-- When the result is true, the array holds the places and nothing else. -/
theorem framed_positions {expectedCount : UInt8} {slots : List Nat}
    (hslots : slots.length = expectedCount.toNat) :
    Framed buffer expectedCount
      ⟨buffer.count delimiterChar = expectedCount.toNat, nullify buffer,
        positions 0 buffer ++ slots.drop (buffer.count delimiterChar)⟩ := by
  have hall : buffer.count delimiterChar = expectedCount.toNat →
      positions 0 buffer ++ slots.drop (buffer.count delimiterChar) = positions 0 buffer := by
    intro hcount
    simp [hcount, ← hslots]
  refine ⟨by simp, ?_, ?_, fun _ => rfl, ?_⟩
  · intro hresult
    simpa [hall (by simpa using hresult)] using positions_increasing 0 buffer
  · intro hresult i
    simp [hall (by simpa using hresult), mem_positions]
  · intro hresult
    have h := arguments_nullify [] buffer
    simpa [arguments, hall (by simpa using hresult)] using h

/-- The loop does what its handlers rely on exactly for the buffers of at most 255 bytes and for
those with too many delimiters in their first 256 bytes. -/
theorem framed_iff (buffer : List UInt8) (expectedCount : UInt8) :
    (∀ slots : List Nat, slots.length = expectedCount.toNat → ∃ r,
      FindAndNullifyDelimiters buffer slots expectedCount r ∧ Framed buffer expectedCount r) ↔
    buffer.length ≤ 255 ∨ expectedCount.toNat < (buffer.take 256).count delimiterChar := by
  constructor
  · intro h
    by_contra hnot
    obtain ⟨hlong, hfew⟩ := not_or.mp hnot
    obtain ⟨r, hr, -⟩ := h (List.replicate expectedCount.toNat 0) (by simp)
    exact not_returns_of_few (by omega) (by simp) (by omega) r hr
  · intro h slots hslots
    rcases Nat.lt_or_ge expectedCount.toNat ((buffer.take 256).count delimiterChar) with
      hmany | hfew
    · -- one of the first 256 bytes is a delimiter too many
      have hend := length_chunk buffer
      obtain ⟨r, hresult, hr⟩ := returns_of_many (n := buffer.length) (w := [])
        (t := buffer.take 256) (q := buffer.drop 256) (d := []) (z := slots)
        hend.1 hend.2 (by simpa using hslots) (by omega)
      rw [List.nil_append, List.nil_append, List.take_append_drop] at hr
      have hcount : (buffer.take 256).count delimiterChar ≤ buffer.count delimiterChar :=
        (List.take_sublist 256 buffer).count_le delimiterChar
      refine ⟨r, hr, ?_, ?_, ?_, ?_, ?_⟩ <;> simp [hresult]
      omega
    · have hshort : buffer.length ≤ 255 := by omega
      rw [List.take_of_length_le (by omega)] at hfew
      exact ⟨_, returns_of_short hshort hslots hfew, framed_positions hslots⟩

/-- A ping whose payload has 257 bytes. It arrives as a whole, it has the one delimiter that the
handler expects, and the loop does not end. -/
theorem long_ping_hangs : ∃ payload : List UInt8,
    readUntilSync lineBufferSize endChar [] (112 :: payload ++ [endChar]) = 112 :: payload ∧
      payload.count delimiterChar = 1 ∧
      ¬ ∀ slots : List Nat, slots.length = 1 → ∃ r,
        FindAndNullifyDelimiters payload slots 1 r ∧ Framed payload 1 r := by
  obtain ⟨n, hn⟩ : ∃ n, n = 256 := ⟨256, rfl⟩
  have hother : (97 : UInt8) ≠ delimiterChar := by decide
  have hcount : (List.replicate n 97 ++ [delimiterChar]).count delimiterChar = 1 := by
    simp [List.count_replicate, hother]
  refine ⟨List.replicate n 97 ++ [delimiterChar], ?_, hcount, ?_⟩
  · have hroom : ([] : List UInt8).length
        + (112 :: (List.replicate n 97 ++ [delimiterChar])).length + 1 < lineBufferSize := by
      simp only [List.length_nil, List.length_cons, List.length_append, List.length_replicate,
        lineBufferSize]
      omega
    refine (readUntilSync_plain hroom ?_ (by decide) []).trans (List.nil_append _)
    intro b hb
    simp only [List.mem_cons, List.mem_append, List.mem_replicate, List.not_mem_nil] at hb
    rcases hb with rfl | ⟨-, rfl⟩ | rfl | h
    · decide
    · decide
    · decide
    · exact h.elim
  · intro h
    obtain ⟨r, hr, -⟩ := h [0] rfl
    have hfew := (List.take_sublist 256 (List.replicate n 97 ++ [delimiterChar])).count_le
      delimiterChar
    rw [hcount] at hfew
    have hlong : 256 ≤ (List.replicate n 97 ++ [delimiterChar]).length := by
      simp only [List.length_append, List.length_replicate, List.length_singleton]
      omega
    exact not_returns_of_few (e := 1) hlong rfl hfew r hr

end RainMakerNeo.HostCtrl
