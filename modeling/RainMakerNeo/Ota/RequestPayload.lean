import RainMakerNeo.Lib.Base64
import RainMakerNeo.Lib.Json
import RainMakerNeo.Ota.Downloader

/-!
# `RainMakerNeo.Ota.RequestPayload`: a block request as JSON

`request_to_json_payload` of `ota_mqtt_downloader.c` writes the bitmap of a request in base64 and
prints the request into the buffer of its caller. The converter puts a line feed behind every 72
characters, and the printer cuts a text that is too long.

`payloadOk_iff` says when the payload is what the request says. A bitmap of 54 bytes or more has a
line feed, which may not stand in a JSON string. A text that does not fit is cut, and the length
that is returned is still the one of the whole text.

`size_t` has `w` bits.
-/

set_option autoImplicit false

namespace RainMakerNeo.Ota

open RainMakerNeo.Lib (Cells Json)

/-! ### The converter -/

/-- `olen` in `esp_rmaker_convert_bytes_to_base64`. -/
def base64Size (w len : Nat) : Nat :=
  let olen := (len * 4 % 2 ^ w / 3 + 4) % 2 ^ w
  let olen := (olen + olen / 72) % 2 ^ w
  (olen + 1) % 2 ^ w

/-- The loop of `esp_rmaker_convert_bytes_to_base64`, with the length of the line so far. -/
def base64Lines : List (BitVec 8) → Nat → List Char
  | a :: b :: c :: rest, lineLen =>
    Lib.Base64.symbol (a >>> 2).toNat ::
      Lib.Base64.symbol ((a &&& 0x03#8) <<< 4 ||| b >>> 4).toNat ::
      Lib.Base64.symbol ((b &&& 0x0F#8) <<< 2 ||| c >>> 6).toNat ::
      Lib.Base64.symbol (c &&& 0x3F#8).toNat ::
      if lineLen + 4 ≥ 72 then '\n' :: base64Lines rest 0 else base64Lines rest (lineLen + 4)
  | [a, b], _ =>
    [Lib.Base64.symbol (a >>> 2).toNat,
      Lib.Base64.symbol ((a &&& 0x03#8) <<< 4 ||| b >>> 4).toNat,
      Lib.Base64.symbol ((b &&& 0x0F#8) <<< 2).toNat, '=']
  | [a], _ =>
    [Lib.Base64.symbol (a >>> 2).toNat, Lib.Base64.symbol ((a &&& 0x03#8) <<< 4).toNat, '=', '=']
  | [], _ => []

/-- `esp_rmaker_convert_bytes_to_base64`. -/
def convertBytesToBase64 (w : Nat) (allocated : Bool) (src : List (BitVec 8)) :
    Option (List Char) :=
  -- Integer overflow.
  if base64Size w src.length < src.length then none
  else if allocated then some (base64Lines src 0)
  else none

/-! ### The printer -/

/-- The conversion to `int`. -/
def asInt (n : Nat) : Int := (BitVec.ofNat 32 n).toInt

/-- `%*s`. A negative width fills up on the right. -/
def formatWidth (width : Int) (s : List Char) : List Char :=
  if 0 ≤ width then List.replicate (width.toNat - s.length) ' ' ++ s
  else s ++ List.replicate ((-width).toNat - s.length) ' '

/-- `%u`. -/
def formatU32 (n : UInt32) : List Char := Nat.toDigits 10 n.toNat

/-- The text that `request_to_json_payload` prints. -/
def requestText (blockSize : UInt32) (r : Request) (bitmap : List Char) : List Char :=
  ['\x7b', '"', 's', '"', ':', '1', ',', '"', 'f', '"', ':'] ++ (formatU32 r.fileId ++
  ([',', '"', 'l', '"', ':'] ++ (formatU32 blockSize ++
  ([',', '"', 'o', '"', ':'] ++ (formatU32 (UInt32.ofNat r.blockOffset) ++
  ([',', '"', 'n', '"', ':'] ++ (formatU32 (UInt32.ofNat r.blockCount) ++
  ([',', '"', 'b', '"', ':', ' ', '"'] ++ (formatWidth (asInt bitmap.length) bitmap ++
  ['"', '\x7d'])))))))))

/-- `snprintf` into a buffer: the text in it, and the result as a `size_t`. The result is negative
for a text that is longer than an `int` can say. -/
def snprintf (w : Nat) (size : BitVec w) (text : List Char) : List Char × Nat :=
  (text.take (size.toNat - 1), if text.length < 2 ^ 31 then text.length else 2 ^ w - 1)

/-- `request_to_json_payload`: the payload and its length. -/
def requestToJsonPayload {w : Nat} (blockSize : UInt32) (allocated : Bool) (r : Request)
    (payloadSize : BitVec w) : Option (List Char × Nat) :=
  if payloadSize.toNat = 0 then none
  else
    (convertBytesToBase64 w allocated r.bitmap).map fun bitmap =>
      snprintf w payloadSize (requestText blockSize r bitmap)

/-! ### Lines -/

section

variable {w : Nat} {blockSize : UInt32} {r : Request} {bytes : List (BitVec 8)} {lineLen : Nat}

/-- The first six bits of a byte. -/
theorem toNat_high6 (a : BitVec 8) : (a >>> 2).toNat = a.toNat / 4 := by
  rw [BitVec.toNat_ushiftRight, Nat.shiftRight_eq_div_pow]

/-- The last two bits of a byte, in front of four. -/
theorem toNat_low2 (a : BitVec 8) : ((a &&& 0x03#8) <<< 4).toNat = a.toNat % 4 * 16 := by
  have hmask : a.toNat &&& 3 = a.toNat % 4 := Nat.and_two_pow_sub_one_eq_mod a.toNat 2
  rw [BitVec.toNat_shiftLeft, BitVec.toNat_and, show (0x03#8).toNat = 3 from rfl, hmask,
    Nat.shiftLeft_eq]
  omega

/-- The last four bits of a byte, in front of two. -/
theorem toNat_low4 (b : BitVec 8) : ((b &&& 0x0F#8) <<< 2).toNat = b.toNat % 16 * 4 := by
  have hmask : b.toNat &&& 15 = b.toNat % 16 := Nat.and_two_pow_sub_one_eq_mod b.toNat 4
  rw [BitVec.toNat_shiftLeft, BitVec.toNat_and, show (0x0F#8).toNat = 15 from rfl, hmask,
    Nat.shiftLeft_eq]
  omega

/-- The last six bits of a byte. -/
theorem toNat_low6 (c : BitVec 8) : (c &&& 0x3F#8).toNat = c.toNat % 64 := by
  rw [BitVec.toNat_and]
  exact Nat.and_two_pow_sub_one_eq_mod c.toNat 6

/-- Two bits of one byte and four of the next. -/
theorem toNat_second (a b : BitVec 8) :
    ((a &&& 0x03#8) <<< 4 ||| b >>> 4).toNat = a.toNat % 4 * 16 + b.toNat / 16 := by
  have hb := b.isLt
  -- The four bits fit below the shifted two, so the disjunction is a sum.
  rw [BitVec.toNat_or, toNat_low2, BitVec.toNat_ushiftRight, Nat.shiftRight_eq_div_pow,
    show a.toNat % 4 * 16 = (a.toNat % 4) <<< 4 from (Nat.shiftLeft_eq _ 4).symm,
    ← Nat.shiftLeft_add_eq_or_of_lt (by omega)]

/-- Four bits of one byte and two of the next. -/
theorem toNat_third (b c : BitVec 8) :
    ((b &&& 0x0F#8) <<< 2 ||| c >>> 6).toNat = b.toNat % 16 * 4 + c.toNat / 64 := by
  have hc := c.isLt
  rw [BitVec.toNat_or, toNat_low4, BitVec.toNat_ushiftRight, Nat.shiftRight_eq_div_pow,
    show b.toNat % 16 * 4 = (b.toNat % 16) <<< 2 from (Nat.shiftLeft_eq _ 2).symm,
    ← Nat.shiftLeft_add_eq_or_of_lt (by omega)]

/-- As long as the line is not full, the converter writes plain base64. -/
theorem base64Lines_eq_encode (bytes : List (BitVec 8)) {lineLen : Nat}
    (h : lineLen + bytes.length / 3 * 4 < 72) :
    base64Lines bytes lineLen = Lib.Base64.encode bytes := by
  -- On three bytes at a time, as both functions recurse. The line stays short to the end.
  induction bytes using Lib.Base64.encode.induct generalizing lineLen with
  | case1 a b c rest ih =>
    simp only [List.length_cons] at h
    rw [base64Lines, if_neg (by omega), ih (by omega), Lib.Base64.encode, toNat_high6,
      toNat_second, toNat_third, toNat_low6]
  | case2 a b => rw [base64Lines, Lib.Base64.encode, toNat_high6, toNat_second, toNat_low4]
  | case3 a => rw [base64Lines, Lib.Base64.encode, toNat_high6, toNat_low2]
  | case4 => rfl

/-- A line that gets full ends with a line feed. In front of it is base64. -/
theorem base64Lines_newline (bytes : List (BitVec 8)) {lineLen : Nat}
    (h : 72 ≤ lineLen + bytes.length / 3 * 4) (hline : lineLen < 72) :
    ∃ front rest, base64Lines bytes lineLen = front ++ '\n' :: rest ∧
      ∀ c ∈ front, Lib.Base64.IsSymbol c := by
  induction bytes using Lib.Base64.encode.induct generalizing lineLen with
  | case1 a b c rest ih =>
    have hsymbol := Lib.Base64.isSymbol_symbol
    simp only [List.length_cons] at h
    rw [base64Lines]
    -- The first group that fills the line is followed by the line feed.
    by_cases hfull : lineLen + 4 ≥ 72
    · rw [if_pos hfull]
      refine ⟨[_, _, _, _], base64Lines rest 0, rfl, ?_⟩
      simp only [List.mem_cons, List.not_mem_nil, or_false]
      rintro x (rfl | rfl | rfl | rfl)
      · exact hsymbol _
      · exact hsymbol _
      · exact hsymbol _
      · exact hsymbol _
    · rw [if_neg hfull]
      have hrest : 72 ≤ lineLen + 4 + rest.length / 3 * 4 := by omega
      obtain ⟨front, back, heq, hfront⟩ := ih hrest (by omega)
      refine ⟨_ :: _ :: _ :: _ :: front, back, by rw [heq]; rfl, ?_⟩
      simp only [List.mem_cons]
      rintro x (rfl | rfl | rfl | rfl | hx)
      · exact hsymbol _
      · exact hsymbol _
      · exact hsymbol _
      · exact hsymbol _
      · exact hfront x hx
  | case2 a b => simp at h; omega
  | case3 a => simp at h; omega
  | case4 => simp at h; omega

/-- The length of what the converter writes: four characters for three bytes, and a line feed for
every 54 bytes. -/
theorem length_base64Lines (bytes : List (BitVec 8)) {lineLen : Nat} (hline : lineLen < 72)
    (hfour : lineLen % 4 = 0) :
    (base64Lines bytes lineLen).length
      = (bytes.length + 2) / 3 * 4 + (lineLen / 4 + bytes.length / 3) / 18 := by
  induction bytes using Lib.Base64.encode.induct generalizing lineLen with
  | case1 a b c rest ih =>
    rw [base64Lines]
    by_cases hfull : lineLen + 4 ≥ 72
    · rw [if_pos hfull]
      simp only [List.length_cons]
      rw [ih (by omega) (by omega)]
      omega
    · rw [if_neg hfull]
      simp only [List.length_cons]
      rw [ih (by omega) (by omega)]
      omega
  | case2 a b =>
    simp only [base64Lines, List.length_cons, List.length_nil]
    omega
  | case3 a =>
    simp only [base64Lines, List.length_cons, List.length_nil]
    omega
  | case4 =>
    simp only [base64Lines, List.length_nil]
    omega

/-- A width that is the length of the text, seen as an `int`, fills nothing up. -/
theorem formatWidth_length (s : List Char) : formatWidth (asInt s.length) s = s := by
  -- The conversion to `int` can make a width negative or smaller, and never larger.
  have hbound : (asInt s.length).toNat ≤ s.length ∧ (-asInt s.length).toNat ≤ s.length := by
    rw [asInt, BitVec.toInt_eq_toNat_cond, BitVec.toNat_ofNat]
    split <;> omega
  rw [formatWidth]
  split
  · rw [Nat.sub_eq_zero_of_le hbound.1]
    rfl
  · rw [Nat.sub_eq_zero_of_le hbound.2]
    exact List.append_nil s

/-- A character of base64 may stand in a JSON string. -/
theorem isPlain_of_isSymbol {c : Char} (h : Lib.Base64.IsSymbol c) : Json.IsPlain c := by
  have hall : ('=' :: Lib.Base64.table).all
      (fun c => decide (0x20 ≤ c.toNat ∧ c ≠ '"' ∧ c ≠ '\\')) = true := by decide +kernel
  have hplain := of_decide_eq_true (List.all_eq_true.mp hall c h)
  exact hplain

/-- The printed digits have no quotes. -/
theorem scan_formatU32 (n : UInt32) :
    Json.Quote.outside.scan (formatU32 n) = .outside :=
  Json.Quote.scan_outside (Json.numberText_toDigits n.toNat).not_mem

/-- A line feed in the bitmap ends no JSON text. -/
theorem not_isText_of_newline {front rest : List Char}
    (hfront : ∀ c ∈ front, Lib.Base64.IsSymbol c) (v : Json) :
    ¬ Json.IsText (requestText blockSize r (front ++ '\n' :: rest)) v := by
  intro h
  have hscan := Json.Derives.scan h
  have hplain : Json.Quote.inside.scan front = .inside :=
    Json.Quote.scan_inside fun c hc => isPlain_of_isSymbol (hfront c hc)
  -- Follow the quotes through the text: the line feed is met inside the last string.
  have hbad : Json.Quote.outside.scan (requestText blockSize r (front ++ '\n' :: rest)) = .bad := by
    rw [requestText, formatWidth_length]
    simp only [Json.Quote.scan_append]
    rw [show Json.Quote.outside.scan ['\x7b', '"', 's', '"', ':', '1', ',', '"', 'f', '"', ':']
        = .outside from rfl, scan_formatU32,
      show Json.Quote.outside.scan [',', '"', 'l', '"', ':'] = .outside from rfl, scan_formatU32,
      show Json.Quote.outside.scan [',', '"', 'o', '"', ':'] = .outside from rfl, scan_formatU32,
      show Json.Quote.outside.scan [',', '"', 'n', '"', ':'] = .outside from rfl, scan_formatU32,
      show Json.Quote.outside.scan [',', '"', 'b', '"', ':', ' ', '"'] = .inside from rfl, hplain]
    show (Json.Quote.bad.scan rest).scan ['"', '\x7d'] = _
    rw [Json.Quote.scan_bad, Json.Quote.scan_bad]
  rw [hbad] at hscan
  exact absurd hscan (by nofun)

/-- The value of a request. -/
def requestValue (blockSize : UInt32) (r : Request) (bitmap : List Char) : Json :=
  .object [(['s'], .number ['1']), (['f'], .number (formatU32 r.fileId)),
    (['l'], .number (formatU32 blockSize)),
    (['o'], .number (formatU32 (UInt32.ofNat r.blockOffset))),
    (['n'], .number (formatU32 (UInt32.ofNat r.blockCount))), (['b'], .string bitmap)]

/-- A value without white space around it. -/
theorem element_of_value {v : Json} {t : List Char} (h : Json.Derives (.value v) t) :
    Json.Derives (.element v) t := by
  have hno : Json.IsWs [] := fun c hc => absurd hc List.not_mem_nil
  have helement := Json.Derives.element hno hno h
  rwa [List.nil_append, List.append_nil] at helement

/-- A member with a name of one letter. -/
theorem member_of_value {c : Char} {v : Json} {t : List Char} (hc : Json.IsPlain c)
    (h : Json.Derives (.element v) t) :
    Json.Derives (.member [c] v) ('"' :: c :: '"' :: ':' :: t) := by
  have hno : Json.IsWs [] := fun c hc => absurd hc List.not_mem_nil
  have hkey : Json.Chars [c] [c] := .plain hc.1 hc.2.1 hc.2.2 .nil
  exact .member hno hno hkey h

/-- A member with a number. -/
theorem member_of_number {c : Char} (hc : Json.IsPlain c) (n : UInt32) :
    Json.Derives (.member [c] (.number (formatU32 n))) ('"' :: c :: '"' :: ':' :: formatU32 n) :=
  member_of_value hc (element_of_value (.number (Json.numberText_toDigits n.toNat)))

/-- A bitmap of plain characters makes a JSON text. -/
theorem isText_requestText {bitmap : List Char} (hbitmap : ∀ c ∈ bitmap, Json.IsPlain c) :
    Json.IsText (requestText blockSize r bitmap) (requestValue blockSize r bitmap) := by
  have hplain : ∀ c ∈ ['s', 'f', 'l', 'o', 'n', 'b'], Json.IsPlain c := by
    have hall : ['s', 'f', 'l', 'o', 'n', 'b'].all
        (fun c => decide (0x20 ≤ c.toNat ∧ c ≠ '"' ∧ c ≠ '\\')) = true := by decide +kernel
    intro c hc
    have hplain := of_decide_eq_true (List.all_eq_true.mp hall c hc)
    exact hplain
  have hone : Json.NumberText ['1'] := Json.numberText_toDigits 1
  have hspace : Json.IsWs [' '] := by
    intro c hc
    exact .inl (List.mem_singleton.mp hc)
  have hno : Json.IsWs [] := fun c hc => absurd hc List.not_mem_nil
  have hstring := Json.Derives.element hspace hno (.string (Json.chars_of_plain hbitmap))
  -- The six members, in the order of the format.
  have hs := member_of_value (hplain 's' (by decide)) (element_of_value (.number hone))
  have hf := member_of_number (hplain 'f' (by decide)) r.fileId
  have hl := member_of_number (hplain 'l' (by decide)) blockSize
  have ho := member_of_number (hplain 'o' (by decide)) (UInt32.ofNat r.blockOffset)
  have hn := member_of_number (hplain 'n' (by decide)) (UInt32.ofNat r.blockCount)
  have hb := member_of_value (hplain 'b' (by decide)) hstring
  have hobject := Json.Derives.object (.moreMembers hs (.moreMembers hf (.moreMembers hl
    (.moreMembers ho (.moreMembers hn (.lastMember hb))))))
  have htext := element_of_value hobject
  rw [Json.IsText, requestText, formatWidth_length]
  simpa [requestValue] using htext

/-! ### The payload -/

/-- How many digits a number has. -/
def digitCount (n : UInt32) : Nat := (Nat.toDigits 10 n.toNat).length

/-- The length of the text of a request: the names, the numbers, and four characters for each three
bytes of the bitmap. -/
def requestLength (blockSize : UInt32) (r : Request) : Nat :=
  35 + digitCount r.fileId + digitCount blockSize + digitCount (UInt32.ofNat r.blockOffset)
    + digitCount (UInt32.ofNat r.blockCount) + (r.bitmap.length + 2) / 3 * 4

theorem length_requestText (blockSize : UInt32) (r : Request) (bitmap : List Char) :
    (requestText blockSize r bitmap).length + (r.bitmap.length + 2) / 3 * 4
      = requestLength blockSize r + bitmap.length := by
  rw [requestText, formatWidth_length, requestLength]
  simp only [List.length_append, List.length_cons, List.length_nil, formatU32, digitCount]
  omega

/-- The payload is what the request says: it is shorter than the buffer, and it is a JSON text whose
bitmap is the one of the request. -/
def PayloadOk {w : Nat} (r : Request) (payloadSize : BitVec w) (payload : List Char × Nat) : Prop :=
  payload.2 < payloadSize.toNat ∧ payload.2 = payload.1.length ∧
    ∃ v bitmap, Json.IsText payload.1 v ∧ v.get ['b'] = [.string bitmap] ∧
      Lib.Base64.decode bitmap = some r.bitmap

/-- A number has at most ten digits. -/
theorem digitCount_le (n : UInt32) : digitCount n ≤ 10 := by
  have hlt : n.toNat < 10 ^ 10 := Nat.lt_of_lt_of_le n.toNat_lt (by decide)
  exact (Nat.length_toDigits_le_iff (by decide) (by decide)).mpr hlt

/-- A short bitmap in a buffer that is large enough. -/
theorem payloadOk_of_short {w : Nat} {payloadSize : BitVec w} (hshort : r.bitmap.length < 54)
    (hfits : requestLength blockSize r < payloadSize.toNat) :
    PayloadOk r payloadSize
      (snprintf w payloadSize (requestText blockSize r (base64Lines r.bitmap 0))) := by
  have hlines : base64Lines r.bitmap 0 = Lib.Base64.encode r.bitmap :=
    base64Lines_eq_encode r.bitmap (by omega)
  have hlen := length_requestText blockSize r (base64Lines r.bitmap 0)
  rw [length_base64Lines r.bitmap (by omega) rfl] at hlen
  have htext : (requestText blockSize r (base64Lines r.bitmap 0)).length
      = requestLength blockSize r := by omega
  -- A text this short has a length that an `int` can hold.
  have hint : (requestText blockSize r (base64Lines r.bitmap 0)).length < 2 ^ 31 := by
    have hf := digitCount_le r.fileId
    have hl := digitCount_le blockSize
    have ho := digitCount_le (UInt32.ofNat r.blockOffset)
    have hn := digitCount_le (UInt32.ofNat r.blockCount)
    rw [htext, requestLength]
    omega
  rw [snprintf, if_pos hint, List.take_of_length_le (by omega)]
  refine ⟨?_, rfl, requestValue blockSize r (base64Lines r.bitmap 0), base64Lines r.bitmap 0,
    ?_, rfl, ?_⟩
  · show (requestText blockSize r (base64Lines r.bitmap 0)).length < _
    omega
  · refine isText_requestText fun c hc => ?_
    rw [hlines] at hc
    exact isPlain_of_isSymbol (Lib.Base64.isSymbol_of_mem hc)
  · rw [hlines]
    exact Lib.Base64.decode_of_encode r.bitmap

/-- What a payload that is as it should be says of the text and the bitmap. -/
theorem short_of_payloadOk {w : Nat} {payloadSize : BitVec w}
    (h : PayloadOk r payloadSize
      (snprintf w payloadSize (requestText blockSize r (base64Lines r.bitmap 0)))) :
    r.bitmap.length < 54 ∧ requestLength blockSize r < payloadSize.toNat := by
  obtain ⟨hlt, hwhole, v, bitmap, htext, -, -⟩ := h
  have hsize := payloadSize.isLt
  have hlen := length_requestText blockSize r (base64Lines r.bitmap 0)
  rw [length_base64Lines r.bitmap (by omega) rfl] at hlen
  -- A negative result of the printer is the largest `size_t`, which is below no buffer.
  have hint : (requestText blockSize r (base64Lines r.bitmap 0)).length < 2 ^ 31 := by
    by_contra hlong
    rw [snprintf, if_neg hlong] at hlt
    have : 2 ^ w - 1 < payloadSize.toNat := hlt
    omega
  rw [snprintf, if_pos hint] at hlt hwhole htext
  have hfits : (requestText blockSize r (base64Lines r.bitmap 0)).length < payloadSize.toNat := hlt
  rw [List.take_of_length_le (by omega)] at htext
  have hshort : r.bitmap.length < 54 := by
    by_contra hlong
    have hfull : 72 ≤ 0 + r.bitmap.length / 3 * 4 := by omega
    obtain ⟨front, rest, heq, hfront⟩ := base64Lines_newline r.bitmap hfull (by omega)
    rw [heq] at htext
    exact not_isText_of_newline hfront v htext
  exact ⟨hshort, by omega⟩

end

/-- `request_to_json_payload` fails or gives the payload of its request exactly if the buffer has
no bytes, the conversion fails, or the bitmap is shorter than 54 bytes and the text of the request
is shorter than the buffer. -/
theorem payloadOk_iff {w : Nat} (blockSize : UInt32) (allocated : Bool) (r : Request)
    (payloadSize : BitVec w) :
    (∀ payload, requestToJsonPayload blockSize allocated r payloadSize = some payload →
        PayloadOk r payloadSize payload) ↔
      (payloadSize.toNat = 0 ∨
        (allocated = false ∨ base64Size w r.bitmap.length < r.bitmap.length) ∨
        (r.bitmap.length < 54 ∧ requestLength blockSize r < payloadSize.toNat)) := by
  by_cases hzero : payloadSize.toNat = 0
  · refine iff_of_true (fun payload h => ?_) (.inl hzero)
    rw [requestToJsonPayload, if_pos hzero] at h
    exact absurd h (by nofun)
  by_cases hfail : allocated = false ∨ base64Size w r.bitmap.length < r.bitmap.length
  · refine iff_of_true (fun payload h => ?_) (.inr (.inl hfail))
    -- The conversion fails and nothing is printed.
    have hnone : convertBytesToBase64 w allocated r.bitmap = none := by
      rw [convertBytesToBase64]
      rcases hfail with rfl | hover
      · simp
      · exact if_pos hover
    rw [requestToJsonPayload, if_neg hzero, hnone] at h
    exact absurd h (by nofun)
  have hsome : convertBytesToBase64 w allocated r.bitmap = some (base64Lines r.bitmap 0) := by
    rw [convertBytesToBase64, if_neg fun h => hfail (.inr h)]
    exact if_pos (by simpa using fun h => hfail (.inl h))
  have hpayload : requestToJsonPayload blockSize allocated r payloadSize
      = some (snprintf w payloadSize (requestText blockSize r (base64Lines r.bitmap 0))) := by
    rw [requestToJsonPayload, if_neg hzero, hsome]
    rfl
  constructor
  · intro h
    exact .inr (.inr (short_of_payloadOk (h _ hpayload)))
  · rintro (h | h | ⟨hshort, hfits⟩) payload hsent
    · exact absurd h hzero
    · exact absurd h hfail
    · rw [hpayload] at hsent
      cases hsent
      exact payloadOk_of_short hshort hfits

/-- A request with a bitmap of 54 bytes in a buffer of 200 bytes: there is room, and the line feed
is in the string. -/
theorem payload_with_newline : ∃ payload,
    requestToJsonPayload 256 true { blockCount := 1, bitmap := List.replicate 54 1#8 } 200#32
        = some payload ∧
      ¬ PayloadOk { blockCount := 1, bitmap := List.replicate 54 1#8 } 200#32 payload := by
  refine ⟨_, rfl, ?_⟩
  intro h
  have hshort := (short_of_payloadOk h).1
  exact absurd hshort (by decide)

end RainMakerNeo.Ota
