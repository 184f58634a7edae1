import OciWrapper.Text.Utf8Bytes

namespace OciWrapper.Mssql

open OciWrapper.Text

/-- `s[i]` of the bytes before the terminator, which is read behind them. -/
def byteAt (s : List UInt8) (i : Nat) : Nat := (s.getD i 0).toNat

/-- `(s[i] & 0xC0) == 0x80`. -/
def continues (s : List UInt8) (i : Nat) : Bool := byteAt s i &&& 0xC0 == 0x80

/-- The code that `px_to_utf16` reads at `s`, and how many bytes it takes. -/
def pxCode (s : List UInt8) : Nat × Nat :=
  let c := byteAt s 0
  if c < 0x80 then (c, 1)
  else if c &&& 0xE0 = 0xC0 ∧ continues s 1 = true then
    ((c &&& 0x1F) <<< 6 ||| (byteAt s 1 &&& 0x3F), 2)
  else if c &&& 0xF0 = 0xE0 ∧ continues s 1 = true ∧ continues s 2 = true then
    ((c &&& 0x0F) <<< 12 ||| (byteAt s 1 &&& 0x3F) <<< 6 ||| (byteAt s 2 &&& 0x3F), 3)
  else if c &&& 0xF8 = 0xF0 ∧ continues s 1 = true ∧ continues s 2 = true ∧
      continues s 3 = true then
    ((c &&& 0x07) <<< 18 ||| (byteAt s 1 &&& 0x3F) <<< 12 ||| (byteAt s 2 &&& 0x3F) <<< 6 |||
      (byteAt s 3 &&& 0x3F), 4)
  else (0xFFFD, 1)

def wideLead (c : Nat) : Nat × Nat :=
  if c < 0x80 then (c, 1)
  else if c &&& 0xE0 = 0xC0 then (c &&& 0x1F, 2)
  else if c &&& 0xF0 = 0xE0 then (c &&& 0x0F, 3)
  else if c &&& 0xF8 = 0xF0 then (c &&& 0x07, 4)
  else (0xFFFD, 1)

/-- `for (size_t j = 1; j < len; j++)`. -/
def followed (s : List UInt8) : Nat → Nat → Nat → Option Nat
  | 0, _, cp => some cp
  | more + 1, j, cp =>
    if continues s j then followed s more (j + 1) (cp <<< 6 ||| (byteAt s j &&& 0x3F)) else none

/-- No code of a character. -/
def badCode (cp : Nat) : Bool := 0x10FFFF < cp || (0xD800 ≤ cp && cp ≤ 0xDFFF)

/-- The code that `utf8_to_wide` reads at `s`, and how many bytes it takes. -/
def wideCode (s : List UInt8) : Nat × Nat :=
  let (cp, len) := wideLead (byteAt s 0)
  let (cp, len) :=
    if 1 < len then
      if s.length < len then (0xFFFD, 1)
      else
        match followed s (len - 1) 1 cp with
        | some cp => (cp, len)
        | none => (0xFFFD, 1)
    else (cp, len)
  (if badCode cp then 0xFFFD else cp, len)

/-- The `SQLWCHAR` units of a code, in both converters. -/
def wideUnits (cp : Nat) : List Nat :=
  if 0x10000 ≤ cp then
    [(0xD800 + (cp - 0x10000) >>> 10) % 2 ^ 16, (0xDC00 + ((cp - 0x10000) &&& 0x3FF)) % 2 ^ 16]
  else [cp % 2 ^ 16]

def wideLoop : Nat → List UInt8 → List Nat
  | 0, _ => []
  | fuel + 1, s =>
    if s = [] then []
    else wideUnits (wideCode s).1 ++ wideLoop fuel (s.drop (wideCode s).2)

/-- `utf8_to_wide`; each round takes a byte. -/
def utf8ToWide (s : List UInt8) : List Nat := wideLoop s.length s

def pxLoop (cap : Nat) : Nat → List UInt8 → Nat → Option (List Nat)
  | 0, _, _ => some []
  | fuel + 1, s, k =>
    if s = [] then some []
    else
      let units := wideUnits (pxCode s).1
      if cap ≤ k + units.length then none
      else (pxLoop cap fuel (s.drop (pxCode s).2) (k + units.length)).map (units ++ ·)

/-- `px_to_utf16` into `cap` units. -/
def pxToUtf16 (s : List UInt8) (cap : Nat) : Option (List Nat) := pxLoop cap s.length s 0

/-- The bytes of a code in `px_to_utf8` and `ms_utf16_to_utf8`. -/
def codeUtf8 (cp : Nat) : List UInt8 :=
  (if cp < 0x80 then [cp]
  else if cp < 0x800 then [0xC0 ||| cp >>> 6, 0x80 ||| (cp &&& 0x3F)]
  else if cp < 0x10000 then
    [0xE0 ||| cp >>> 12, 0x80 ||| (cp >>> 6 &&& 0x3F), 0x80 ||| (cp &&& 0x3F)]
  else [0xF0 ||| cp >>> 18, 0x80 ||| (cp >>> 12 &&& 0x3F), 0x80 ||| (cp >>> 6 &&& 0x3F),
    0x80 ||| (cp &&& 0x3F)]).map UInt8.ofNat

def highSurrogate (unit : Nat) : Bool := 0xD800 ≤ unit && unit ≤ 0xDBFF
def lowSurrogate (unit : Nat) : Bool := 0xDC00 ≤ unit && unit ≤ 0xDFFF

def pairCode (high low : Nat) : Nat := 0x10000 + (high - 0xD800) <<< 10 + (low - 0xDC00)

/-- The code that `px_to_utf8` reads first, and how many units it takes. -/
def pxPair (unit : Nat) (rest : List Nat) : Nat × Nat :=
  if highSurrogate unit && (rest.head?.any lowSurrogate) then (pairCode unit (rest.headD 0), 2)
  else if 0xD800 ≤ unit ∧ unit ≤ 0xDFFF then (0xFFFD, 1)
  else (unit, 1)

/-- The code that `ms_utf16_to_utf8` reads first, and how many units it takes. -/
def msPair (unit : Nat) (rest : List Nat) : Nat × Nat :=
  if highSurrogate unit && !rest.isEmpty then
    if lowSurrogate (rest.headD 0) then (pairCode unit (rest.headD 0), 2) else (0xFFFD, 1)
  else if 0xD800 ≤ unit ∧ unit ≤ 0xDFFF then (0xFFFD, 1)
  else (unit, 1)

/-- `px_to_utf8` into `out_size` bytes; each round takes a unit. -/
def pxBackLoop (outSize : Nat) : Nat → List Nat → Nat → Option (List UInt8)
  | 0, _, _ => some []
  | _ + 1, [], _ => some []
  | fuel + 1, unit :: rest, k =>
    let bytes := codeUtf8 (pxPair unit rest).1
    if outSize ≤ k + bytes.length then none
    else (pxBackLoop outSize fuel ((unit :: rest).drop (pxPair unit rest).2)
      (k + bytes.length)).map (bytes ++ ·)

def pxToUtf8 (units : List Nat) (outSize : Nat) : Option (List UInt8) :=
  pxBackLoop outSize units.length units 0

/-- `in[2 * i] | in[2 * i + 1] << 8`; a last odd byte is left out. -/
def littleUnits : List UInt8 → List Nat
  | low :: high :: bytes => (low.toNat ||| high.toNat <<< 8) :: littleUnits bytes
  | _ => []

def msBackLoop : Nat → List Nat → List UInt8
  | 0, _ => []
  | _ + 1, [] => []
  | fuel + 1, unit :: rest =>
    codeUtf8 (msPair unit rest).1 ++ msBackLoop fuel ((unit :: rest).drop (msPair unit rest).2)

def msUtf16ToUtf8 (bytes : List UInt8) : List UInt8 :=
  msBackLoop (littleUnits bytes).length (littleUnits bytes)

/-- The units as the driver has them in memory. -/
def littleBytes (units : List Nat) : List UInt8 :=
  units.flatMap fun unit => [UInt8.ofNat unit, UInt8.ofNat (unit >>> 8)]

/-- Each unit is the code of a character, or half of a pair. -/
inductive WellFormedUnits : List Nat → Prop
  | nil : WellFormedUnits []
  | unit {unit : Nat} {units : List Nat} (small : unit < 0x10000) (character : badCode unit = false)
      (rest : WellFormedUnits units) : WellFormedUnits (unit :: units)
  | pair {high low : Nat} {units : List Nat} (first : highSurrogate high = true)
      (second : lowSurrogate low = true) (rest : WellFormedUnits units) :
      WellFormedUnits (high :: low :: units)

/-- The bytes of a surrogate, in three or (overlong) four, or of a code beyond U+10FFFF. -/
inductive BadSequence : List UInt8 → Prop
  | surrogate {b c : UInt8} {rest : List UInt8} (second : 0xA0 ≤ b ∧ b ≤ 0xBF)
      (third : 0x80 ≤ c ∧ c ≤ 0xBF) : BadSequence (0xED :: b :: c :: rest)
  | overlong {c d : UInt8} {rest : List UInt8} (third : 0xA0 ≤ c ∧ c ≤ 0xBF)
      (fourth : 0x80 ≤ d ∧ d ≤ 0xBF) : BadSequence (0xF0 :: 0x8D :: c :: d :: rest)
  | beyond {a b c d : UInt8} {rest : List UInt8}
      (first : a = 0xF4 ∧ 0x90 ≤ b ∨ 0xF5 ≤ a ∧ a ≤ 0xF7 ∧ 0x80 ≤ b) (second : b ≤ 0xBF)
      (third : 0x80 ≤ c ∧ c ≤ 0xBF) (fourth : 0x80 ≤ d ∧ d ≤ 0xBF) :
      BadSequence (a :: b :: c :: d :: rest)

def utf8Bytes (text : List Char) : List UInt8 := text.flatMap String.utf8EncodeChar

/-- What the converters promise of a byte string. -/
def ConvertersAgree (s : List UInt8) : Prop :=
  (∀ cap units, pxToUtf16 s cap = some units →
    units = utf8ToWide s ∧ WellFormedUnits units) ∧
  WellFormedUnits (utf8ToWide s) ∧
  ∀ text, s = utf8Bytes text →
    (∀ outSize, s.length < outSize → pxToUtf8 (utf8ToWide s) outSize = some s) ∧
      msUtf16ToUtf8 (littleBytes (utf8ToWide s)) = s

section Bits

theorem and_low (n : Nat) : n &&& 0x3F = n % 64 ∧ n &&& 0x1F = n % 32 ∧ n &&& 0x0F = n % 16 ∧
    n &&& 0x07 = n % 8 ∧ n &&& 0x3FF = n % 1024 :=
  ⟨Nat.and_two_pow_sub_one_eq_mod n 6, Nat.and_two_pow_sub_one_eq_mod n 5,
    Nat.and_two_pow_sub_one_eq_mod n 4, Nat.and_two_pow_sub_one_eq_mod n 3,
    Nat.and_two_pow_sub_one_eq_mod n 10⟩

theorem lead_tests {c : Nat} (byte : c < 256) :
    (c &&& 0xE0 = 0xC0 ↔ 192 ≤ c ∧ c < 224) ∧ (c &&& 0xF0 = 0xE0 ↔ 224 ≤ c ∧ c < 240) ∧
      (c &&& 0xF8 = 0xF0 ↔ 240 ≤ c ∧ c < 248) ∧ (c &&& 0xC0 = 0x80 ↔ 128 ≤ c ∧ c < 192) := by
  have table : ∀ c < 256, (c &&& 0xE0 = 0xC0 ↔ 192 ≤ c ∧ c < 224) ∧
      (c &&& 0xF0 = 0xE0 ↔ 224 ≤ c ∧ c < 240) ∧ (c &&& 0xF8 = 0xF0 ↔ 240 ≤ c ∧ c < 248) ∧
      (c &&& 0xC0 = 0x80 ↔ 128 ≤ c ∧ c < 192) := by decide +kernel
  exact table c byte

theorem shifted_or (high : Nat) {low : Nat} (small : low < 64) :
    high <<< 6 ||| low = high * 64 + low := by
  rw [← Nat.shiftLeft_add_eq_or_of_lt (i := 6) small, Nat.shiftLeft_eq]

theorem two_bytes (c b : Nat) :
    (c &&& 0x1F) <<< 6 ||| (b &&& 0x3F) = c % 32 * 64 + b % 64 := by
  rw [(and_low c).2.1, (and_low b).1, shifted_or _ (by omega)]

theorem three_bytes (c b d : Nat) :
    (c &&& 0x0F) <<< 12 ||| (b &&& 0x3F) <<< 6 ||| (d &&& 0x3F) =
      (c % 16 * 64 + b % 64) * 64 + d % 64 := by
  rw [(and_low c).2.2.1, (and_low b).1, (and_low d).1,
    show (12 : Nat) = 6 + 6 from rfl, Nat.shiftLeft_add, ← Nat.shiftLeft_or_distrib,
    shifted_or _ (by omega), shifted_or _ (by omega)]

theorem four_bytes (c b d e : Nat) :
    (c &&& 0x07) <<< 18 ||| (b &&& 0x3F) <<< 12 ||| (d &&& 0x3F) <<< 6 ||| (e &&& 0x3F) =
      ((c % 8 * 64 + b % 64) * 64 + d % 64) * 64 + e % 64 := by
  rw [(and_low c).2.2.2.1, (and_low b).1, (and_low d).1, (and_low e).1,
    show (18 : Nat) = 6 + 6 + 6 from rfl, show (12 : Nat) = 6 + 6 from rfl]
  simp only [Nat.shiftLeft_add, ← Nat.shiftLeft_or_distrib]
  rw [shifted_or _ (by omega), shifted_or _ (by omega), shifted_or _ (by omega)]

end Bits

section Codes

theorem byteAt_lt (s : List UInt8) (i : Nat) : byteAt s i < 256 := UInt8.toNat_lt _

theorem byteAt_cons_zero (a : UInt8) (s : List UInt8) : byteAt (a :: s) 0 = a.toNat := rfl

theorem byteAt_cons_succ (a : UInt8) (s : List UInt8) (i : Nat) :
    byteAt (a :: s) (i + 1) = byteAt s i := rfl

theorem continues_iff (s : List UInt8) (i : Nat) :
    continues s i = true ↔ 128 ≤ byteAt s i ∧ byteAt s i < 192 := by
  rw [continues, beq_iff_eq]
  exact (lead_tests (byteAt_lt s i)).2.2.2

theorem continues_inside {s : List UInt8} {i : Nat} (byte : continues s i = true) :
    i < s.length := by
  by_contra outside
  rw [continues_iff, byteAt, List.getD_eq_default _ _ (Nat.le_of_not_lt outside)] at byte
  exact absurd byte.1 (by decide)

/-- The sequences that `px_to_utf16` takes, and what it makes of them. -/
inductive Reads (s : List UInt8) : Nat → Nat → Prop
  | one (lead : byteAt s 0 < 128) : Reads s (byteAt s 0) 1
  | two (lead : 192 ≤ byteAt s 0 ∧ byteAt s 0 < 224) (second : continues s 1 = true) :
      Reads s (byteAt s 0 % 32 * 64 + byteAt s 1 % 64) 2
  | three (lead : 224 ≤ byteAt s 0 ∧ byteAt s 0 < 240) (second : continues s 1 = true)
      (third : continues s 2 = true) :
      Reads s ((byteAt s 0 % 16 * 64 + byteAt s 1 % 64) * 64 + byteAt s 2 % 64) 3
  | four (lead : 240 ≤ byteAt s 0 ∧ byteAt s 0 < 248) (second : continues s 1 = true)
      (third : continues s 2 = true) (fourth : continues s 3 = true) :
      Reads s (((byteAt s 0 % 8 * 64 + byteAt s 1 % 64) * 64 + byteAt s 2 % 64) * 64 +
        byteAt s 3 % 64) 4
  | broken : Reads s 0xFFFD 1

theorem pxCode_reads (s : List UInt8) : ∃ cp len, pxCode s = (cp, len) ∧ Reads s cp len := by
  obtain ⟨two, three, four, -⟩ := lead_tests (byteAt_lt s 0)
  simp only [pxCode, two, three, four, two_bytes, three_bytes, four_bytes]
  split
  next plain => exact ⟨_, _, rfl, .one plain⟩
  split
  next found => exact ⟨_, _, rfl, .two found.1 found.2⟩
  split
  next found => exact ⟨_, _, rfl, .three found.1 found.2.1 found.2.2⟩
  split
  next found => exact ⟨_, _, rfl, .four found.1 found.2.1 found.2.2.1 found.2.2.2⟩
  next => exact ⟨_, _, rfl, .broken⟩

/-- A sequence that can be taken is. -/
theorem pxCode_of_reads {s : List UInt8} {cp len : Nat} (found : Reads s cp len)
    (whole : ¬(cp = 0xFFFD ∧ len = 1)) : pxCode s = (cp, len) := by
  obtain ⟨two, three, four, -⟩ := lead_tests (byteAt_lt s 0)
  simp only [pxCode, two, three, four, two_bytes, three_bytes, four_bytes]
  cases found with
  | one lead => rw [if_pos lead]
  | two lead second => rw [if_neg (by omega), if_pos ⟨lead, second⟩]
  | three lead second third =>
    rw [if_neg (by omega), if_neg (by omega), if_pos ⟨lead, second, third⟩]
  | four lead second third fourth =>
    rw [if_neg (by omega), if_neg (by omega), if_neg (by omega),
      if_pos ⟨lead, second, third, fourth⟩]
  | broken => exact absurd ⟨rfl, rfl⟩ whole

/-- `utf8_to_wide` reads the same sequences, but for the codes of no character. -/
theorem wideCode_eq (s : List UInt8) :
    wideCode s = (if badCode (pxCode s).1 then 0xFFFD else (pxCode s).1, (pxCode s).2) := by
  obtain ⟨two, three, four, -⟩ := lead_tests (byteAt_lt s 0)
  have short : ∀ i, s.length ≤ i → continues s i = false := fun i outside =>
    Bool.eq_false_iff.mpr fun byte => absurd (continues_inside byte) (Nat.not_lt_of_le outside)
  have same : (if 1 < (wideLead (byteAt s 0)).2 then
      if s.length < (wideLead (byteAt s 0)).2 then (0xFFFD, 1)
      else
        match followed s ((wideLead (byteAt s 0)).2 - 1) 1 (wideLead (byteAt s 0)).1 with
        | some cp => (cp, (wideLead (byteAt s 0)).2)
        | none => (0xFFFD, 1)
      else wideLead (byteAt s 0)) = pxCode s := by
    simp only [wideLead, pxCode, two, three, four]
    by_cases plain : byteAt s 0 < 128
    · simp [plain]
    by_cases second : 192 ≤ byteAt s 0 ∧ byteAt s 0 < 224
    · cases first : continues s 1 with
      | false =>
        have others : ¬(224 ≤ byteAt s 0) ∧ ¬(240 ≤ byteAt s 0) := by omega
        simp [plain, second, followed, first, others]
      | true =>
        have long := continues_inside first
        simp [plain, second, followed, first, Nat.not_lt.mpr long]
    by_cases third : 224 ≤ byteAt s 0 ∧ byteAt s 0 < 240
    · have others : ¬(240 ≤ byteAt s 0) := by omega
      cases last : continues s 2 with
      | false =>
        cases first : continues s 1 <;>
          simp [plain, second, third, followed, first, last, others]
      | true =>
        have long := continues_inside last
        cases first : continues s 1 <;>
          simp [plain, second, third, followed, first, last, others, Nat.not_lt.mpr long,
            Nat.shiftLeft_or_distrib, ← Nat.shiftLeft_add]
    by_cases fourth : 240 ≤ byteAt s 0 ∧ byteAt s 0 < 248
    · cases last : continues s 3 with
      | false =>
        cases first : continues s 1 <;> cases middle : continues s 2 <;>
          simp [plain, second, third, fourth, followed, first, middle, last]
      | true =>
        have long := continues_inside last
        cases first : continues s 1 <;> cases middle : continues s 2 <;>
          simp [plain, second, third, fourth, followed, first, middle, last, Nat.not_lt.mpr long,
            Nat.shiftLeft_or_distrib, ← Nat.shiftLeft_add]
    · simp [plain, second, third, fourth]
  rw [← same]
  rfl

/-- The bytes behind the first of a sequence continue it. -/
theorem pxCode_len (s : List UInt8) :
    1 ≤ (pxCode s).2 ∧ ∀ i, 0 < i → i < (pxCode s).2 → continues s i = true := by
  obtain ⟨cp, len, found, reads⟩ := pxCode_reads s
  rw [found]
  cases reads with
  | one lead => exact ⟨Nat.le_refl 1, fun i more less => by omega⟩
  | two lead second =>
    refine ⟨by omega, fun i more less => ?_⟩
    obtain rfl : i = 1 := by omega
    exact second
  | three lead second third =>
    refine ⟨by omega, fun i more less => ?_⟩
    obtain rfl | rfl : i = 1 ∨ i = 2 := by omega
    · exact second
    · exact third
  | four lead second third fourth =>
    refine ⟨by omega, fun i more less => ?_⟩
    obtain rfl | rfl | rfl : i = 1 ∨ i = 2 ∨ i = 3 := by omega
    · exact second
    · exact third
    · exact fourth
  | broken => exact ⟨Nat.le_refl 1, fun i more less => by omega⟩

theorem pxCode_lt (s : List UInt8) : (pxCode s).1 < 0x200000 := by
  have bound := byteAt_lt s 0
  obtain ⟨cp, len, found, reads⟩ := pxCode_reads s
  rw [found]
  cases reads <;> dsimp only <;> omega

theorem badCode_iff (cp : Nat) :
    badCode cp = true ↔ 0x10FFFF < cp ∨ (0xD800 ≤ cp ∧ cp ≤ 0xDFFF) := by
  rw [badCode, Bool.or_eq_true, Bool.and_eq_true, decide_eq_true_eq, decide_eq_true_eq,
    decide_eq_true_eq]

theorem byte_le (low high b : UInt8) :
    low ≤ b ∧ b ≤ high ↔ low.toNat ≤ b.toNat ∧ b.toNat ≤ high.toNat := by
  rw [UInt8.le_iff_toNat_le, UInt8.le_iff_toNat_le]

theorem bad_sequence_of_code {s : List UInt8} (bad : badCode (pxCode s).1 = true) :
    BadSequence s := by
  obtain ⟨cp, len, found, reads⟩ := pxCode_reads s
  rw [found, badCode_iff] at bad
  cases reads with
  | one lead => omega
  | two lead second => omega
  | three lead second third =>
    have long := continues_inside third
    match s, long with
    | a :: b :: c :: rest, _ =>
      rw [continues_iff] at second third
      simp only [byteAt_cons_zero, byteAt_cons_succ] at lead second third bad
      obtain rfl : a = 0xED := UInt8.toNat_inj.mp (by change a.toNat = 237; omega)
      change _ ∨ (55296 ≤ (237 % 16 * 64 + b.toNat % 64) * 64 + c.toNat % 64 ∧ _) at bad
      refine .surrogate ((byte_le _ _ b).mpr ?_) ((byte_le _ _ c).mpr ?_)
      · change 160 ≤ b.toNat ∧ b.toNat ≤ 191
        omega
      · change 128 ≤ c.toNat ∧ c.toNat ≤ 191
        omega
  | four lead second third fourth =>
    have long := continues_inside fourth
    match s, long with
    | a :: b :: c :: d :: rest, _ =>
      rw [continues_iff] at second third fourth
      simp only [byteAt_cons_zero, byteAt_cons_succ] at lead second third fourth bad
      have last : 0x80 ≤ d ∧ d ≤ 0xBF := by
        rw [byte_le]
        change 128 ≤ d.toNat ∧ d.toNat ≤ 191
        omega
      rcases bad with high | between
      · refine .beyond ?_ ?_ ((byte_le _ _ c).mpr ?_) last
        · rcases Nat.eq_or_lt_of_le (by omega : 244 ≤ a.toNat) with same | more
          · refine Or.inl ⟨UInt8.toNat_inj.mp same.symm, UInt8.le_iff_toNat_le.mpr ?_⟩
            change 144 ≤ b.toNat
            omega
          · exact Or.inr ⟨UInt8.le_iff_toNat_le.mpr more,
              UInt8.le_iff_toNat_le.mpr (Nat.le_of_lt_succ lead.2),
              UInt8.le_iff_toNat_le.mpr second.1⟩
        · rw [UInt8.le_iff_toNat_le]
          change b.toNat ≤ 191
          omega
        · change 128 ≤ c.toNat ∧ c.toNat ≤ 191
          omega
      · obtain rfl : a = 0xF0 := UInt8.toNat_inj.mp (by change a.toNat = 240; omega)
        change 55296 ≤ ((240 % 8 * 64 + b.toNat % 64) * 64 + c.toNat % 64) * 64 + d.toNat % 64 ∧ _
          at between
        obtain rfl : b = 0x8D := UInt8.toNat_inj.mp (by change b.toNat = 141; omega)
        change 55296 ≤ ((240 % 8 * 64 + 141 % 64) * 64 + c.toNat % 64) * 64 + d.toNat % 64 ∧ _
          at between
        refine .overlong ((byte_le _ _ c).mpr ?_) last
        change 160 ≤ c.toNat ∧ c.toNat ≤ 191
        omega
  | broken => omega

theorem code_of_bad_sequence {s : List UInt8} (bad : BadSequence s) :
    badCode (pxCode s).1 = true := by
  have bytes : ∀ {low high b : UInt8}, low ≤ b ∧ b ≤ high →
      low.toNat ≤ b.toNat ∧ b.toNat ≤ high.toNat := (byte_le _ _ _).mp
  cases bad with
  | @surrogate b c rest second third =>
    have second : 160 ≤ b.toNat ∧ b.toNat ≤ 191 := bytes second
    have third : 128 ≤ c.toNat ∧ c.toNat ≤ 191 := bytes third
    have reads : Reads (0xED :: b :: c :: rest) ((237 % 16 * 64 + b.toNat % 64) * 64 + c.toNat % 64)
        3 := by
      refine .three (by change 224 ≤ 237 ∧ 237 < 240; decide) ?_ ?_ <;> rw [continues_iff] <;>
        simp only [byteAt_cons_zero, byteAt_cons_succ] <;> omega
    rw [pxCode_of_reads reads (by omega), badCode_iff]
    omega
  | @overlong c d rest third fourth =>
    have third : 160 ≤ c.toNat ∧ c.toNat ≤ 191 := bytes third
    have fourth : 128 ≤ d.toNat ∧ d.toNat ≤ 191 := bytes fourth
    have reads : Reads (0xF0 :: 0x8D :: c :: d :: rest)
        (((240 % 8 * 64 + 141 % 64) * 64 + c.toNat % 64) * 64 + d.toNat % 64) 4 := by
      refine .four (by change 240 ≤ 240 ∧ 240 < 248; decide) ?_ ?_ ?_ <;> rw [continues_iff] <;>
        simp only [byteAt_cons_zero, byteAt_cons_succ]
      · change 128 ≤ 141 ∧ 141 < 192
        decide
      · omega
      · omega
    rw [pxCode_of_reads reads (by omega), badCode_iff]
    omega
  | @beyond a b c d rest first second third fourth =>
    have third : 128 ≤ c.toNat ∧ c.toNat ≤ 191 := bytes third
    have fourth : 128 ≤ d.toNat ∧ d.toNat ≤ 191 := bytes fourth
    have second : b.toNat ≤ 191 := UInt8.le_iff_toNat_le.mp second
    have lead : a.toNat = 244 ∧ 144 ≤ b.toNat ∨
        245 ≤ a.toNat ∧ a.toNat ≤ 247 ∧ 128 ≤ b.toNat := by
      rcases first with ⟨rfl, more⟩ | ⟨low, high, more⟩
      · exact Or.inl ⟨rfl, UInt8.le_iff_toNat_le.mp more⟩
      · exact Or.inr ⟨UInt8.le_iff_toNat_le.mp low, UInt8.le_iff_toNat_le.mp high,
          UInt8.le_iff_toNat_le.mp more⟩
    have reads : Reads (a :: b :: c :: d :: rest)
        (((a.toNat % 8 * 64 + b.toNat % 64) * 64 + c.toNat % 64) * 64 + d.toNat % 64) 4 := by
      refine .four ?_ ?_ ?_ ?_ <;> try rw [continues_iff]
      all_goals simp only [byteAt_cons_zero, byteAt_cons_succ]
      all_goals omega
    rw [pxCode_of_reads reads (by omega), badCode_iff]
    omega

/-- The first byte of a bad sequence continues none. -/
theorem BadSequence.lead {s : List UInt8} (bad : BadSequence s) : continues s 0 = false := by
  rw [Bool.eq_false_iff]
  intro byte
  have high := ((continues_iff s 0).mp byte).2
  cases bad with
  | surrogate second third =>
    change 237 < 192 at high
    omega
  | overlong third fourth =>
    change 240 < 192 at high
    omega
  | @beyond a b c d rest first second third fourth =>
    rw [byteAt_cons_zero] at high
    have low : 244 ≤ a.toNat := by
      rcases first with ⟨rfl, -⟩ | ⟨low, -⟩
      · exact Nat.le_refl _
      · exact Nat.le_of_succ_le (UInt8.le_iff_toNat_le.mp low)
    omega

/-- A character is read as one code. -/
theorem pxCode_character (c : Char) (rest : List UInt8) :
    pxCode (String.utf8EncodeChar c ++ rest) = (c.toNat, (String.utf8EncodeChar c).length) := by
  have bound := toNat_lt c
  have value : c.val.toNat = c.toNat := rfl
  have bytes : ∀ n, n < 256 → (UInt8.ofNat n).toNat = n := fun n small =>
    UInt8.toNat_ofNat_of_lt' small
  have encoded : String.utf8EncodeChar c = if c.toNat ≤ 0x7F then [UInt8.ofNat c.toNat] else
      if c.toNat ≤ 0x7FF then
        [UInt8.ofNat (c.toNat / 64 % 32 + 192), UInt8.ofNat (c.toNat % 64 + 128)] else
      if c.toNat ≤ 0xFFFF then
        [UInt8.ofNat (c.toNat / 4096 % 16 + 224), UInt8.ofNat (c.toNat / 64 % 64 + 128),
          UInt8.ofNat (c.toNat % 64 + 128)] else
        [UInt8.ofNat (c.toNat / 262144 % 8 + 240), UInt8.ofNat (c.toNat / 4096 % 64 + 128),
          UInt8.ofNat (c.toNat / 64 % 64 + 128), UInt8.ofNat (c.toNat % 64 + 128)] := rfl
  generalize whole : String.utf8EncodeChar c ++ rest = s
  rw [encoded] at whole ⊢
  split at whole
  next one =>
    have lead : byteAt s 0 = c.toNat := whole ▸ bytes _ (by omega)
    rw [if_pos one, pxCode_of_reads (.one (by omega)) (by omega), lead]
    rfl
  split at whole
  next above two =>
    have lead : byteAt s 0 = c.toNat / 64 % 32 + 192 := whole ▸ bytes _ (by omega)
    have second : byteAt s 1 = c.toNat % 64 + 128 := whole ▸ bytes _ (by omega)
    rw [if_neg above, if_pos two, pxCode_of_reads
      (.two (by omega) ((continues_iff s 1).mpr (by omega))) (by omega)]
    exact Prod.ext (by dsimp only; omega) rfl
  split at whole
  next above above' three =>
    have lead : byteAt s 0 = c.toNat / 4096 % 16 + 224 := whole ▸ bytes _ (by omega)
    have second : byteAt s 1 = c.toNat / 64 % 64 + 128 := whole ▸ bytes _ (by omega)
    have third : byteAt s 2 = c.toNat % 64 + 128 := whole ▸ bytes _ (by omega)
    rw [if_neg above, if_neg above', if_pos three, pxCode_of_reads
      (.three (by omega) ((continues_iff s 1).mpr (by omega))
        ((continues_iff s 2).mpr (by omega))) (by omega)]
    exact Prod.ext (by dsimp only; omega) rfl
  next above above' beyond =>
    have lead : byteAt s 0 = c.toNat / 262144 % 8 + 240 := whole ▸ bytes _ (by omega)
    have second : byteAt s 1 = c.toNat / 4096 % 64 + 128 := whole ▸ bytes _ (by omega)
    have third : byteAt s 2 = c.toNat / 64 % 64 + 128 := whole ▸ bytes _ (by omega)
    have fourth : byteAt s 3 = c.toNat % 64 + 128 := whole ▸ bytes _ (by omega)
    rw [if_neg above, if_neg above', if_neg beyond, pxCode_of_reads
      (.four (by omega) ((continues_iff s 1).mpr (by omega)) ((continues_iff s 2).mpr (by omega))
        ((continues_iff s 3).mpr (by omega))) (by omega)]
    exact Prod.ext (by dsimp only; omega) rfl

end Codes

section Loops

/-- The codes that `px_to_utf16` reads. -/
def pxCodes : Nat → List UInt8 → List Nat
  | 0, _ => []
  | fuel + 1, s =>
    if s = [] then [] else (pxCode s).1 :: pxCodes fuel (s.drop (pxCode s).2)

def fixedCode (cp : Nat) : Nat := if badCode cp then 0xFFFD else cp

theorem wideLoop_eq (fuel : Nat) (s : List UInt8) :
    wideLoop fuel s = (pxCodes fuel s).flatMap fun cp => wideUnits (fixedCode cp) := by
  induction fuel generalizing s with
  | zero => rfl
  | succ fuel ih =>
    rw [wideLoop, pxCodes]
    split
    next => rfl
    next => rw [wideCode_eq, List.flatMap_cons, ih]; rfl

theorem pxLoop_some {cap fuel : Nat} : ∀ {s : List UInt8} {k : Nat},
    k + ((pxCodes fuel s).flatMap wideUnits).length < cap →
    pxLoop cap fuel s k = some ((pxCodes fuel s).flatMap wideUnits) := by
  induction fuel with
  | zero =>
    intro s k _
    rfl
  | succ fuel ih =>
    intro s k room
    rw [pxLoop]
    rw [pxCodes] at room ⊢
    split
    next => rfl
    next filled =>
      rw [if_neg filled, List.flatMap_cons, List.length_append] at room
      dsimp only
      rw [if_neg (by omega), ih (by omega), List.flatMap_cons]
      rfl

theorem pxLoop_eq_some {cap fuel : Nat} : ∀ {s : List UInt8} {k : Nat} {units : List Nat},
    pxLoop cap fuel s k = some units → units = (pxCodes fuel s).flatMap wideUnits := by
  induction fuel with
  | zero =>
    intro s k units made
    exact (Option.some.inj made).symm
  | succ fuel ih =>
    intro s k units made
    rw [pxLoop] at made
    rw [pxCodes]
    split at made
    next empty =>
      rw [if_pos empty]
      exact (Option.some.inj made).symm
    next filled =>
      dsimp only at made
      split at made
      · cases made
      obtain ⟨later, rest, rfl⟩ := Option.map_eq_some_iff.mp made
      rw [if_neg filled, List.flatMap_cons, ih rest]

/-- A code of no character is read exactly where a suffix starts with a bad sequence. -/
theorem exists_bad_iff {fuel : Nat} : ∀ {s : List UInt8}, s.length ≤ fuel →
    ((∃ cp ∈ pxCodes fuel s, badCode cp = true) ↔ ∃ t, t <:+ s ∧ BadSequence t) := by
  induction fuel with
  | zero =>
    intro s empty
    obtain rfl := List.length_eq_zero_iff.mp (Nat.le_zero.mp empty)
    constructor
    · rintro ⟨cp, member, -⟩
      cases member
    · rintro ⟨t, suffix, bad⟩
      obtain rfl := List.suffix_nil.mp suffix
      cases bad
  | succ fuel ih =>
    intro s bound
    rw [pxCodes]
    split
    next empty =>
      subst empty
      constructor
      · rintro ⟨cp, member, -⟩
        cases member
      · rintro ⟨t, suffix, bad⟩
        obtain rfl := List.suffix_nil.mp suffix
        cases bad
    next filled =>
      obtain ⟨positive, skipped⟩ := pxCode_len s
      have size := List.length_pos_of_ne_nil filled
      have rest := @ih (s.drop (pxCode s).2) (by rw [List.length_drop]; omega)
      constructor
      · rintro ⟨cp, member, bad⟩
        rcases List.mem_cons.mp member with rfl | member
        · exact ⟨s, List.suffix_refl s, bad_sequence_of_code bad⟩
        · obtain ⟨t, suffix, bad⟩ := rest.mp ⟨cp, member, bad⟩
          exact ⟨t, suffix.trans (List.drop_suffix _ s), bad⟩
      · rintro ⟨t, suffix, bad⟩
        obtain ⟨i, rfl⟩ : ∃ i, t = s.drop i := ⟨_, List.suffix_iff_eq_drop.mp suffix⟩
        rcases Nat.eq_zero_or_pos i with rfl | more
        · exact ⟨_, List.mem_cons_self, code_of_bad_sequence bad⟩
        have lead := bad.lead
        have same : continues (s.drop i) 0 = continues s i := by
          simp only [continues, byteAt, List.getD_eq_getElem?_getD, List.getElem?_drop,
            Nat.add_zero]
        have later : (pxCode s).2 ≤ i := by
          by_contra inside
          rw [same, skipped i more (Nat.lt_of_not_le inside)] at lead
          cases lead
        have behind : s.drop i <:+ s.drop (pxCode s).2 := by
          rw [← Nat.add_sub_cancel' later, ← List.drop_drop]
          exact List.drop_suffix _ _
        obtain ⟨cp, member, bad⟩ := rest.mpr ⟨s.drop i, behind, bad⟩
        exact ⟨cp, List.mem_cons_of_mem _ member, bad⟩

theorem pxCodes_lt {fuel : Nat} {s : List UInt8} : ∀ cp ∈ pxCodes fuel s, cp < 0x200000 := by
  induction fuel generalizing s with
  | zero => exact List.forall_mem_nil _
  | succ fuel ih =>
    rw [pxCodes]
    split
    · exact List.forall_mem_nil _
    · exact List.forall_mem_cons.mpr ⟨pxCode_lt s, ih⟩

/-- The codes of a text are those of its characters. -/
theorem pxCodes_utf8Bytes {text : List Char} : ∀ {fuel : Nat}, (utf8Bytes text).length ≤ fuel →
    pxCodes fuel (utf8Bytes text) = text.map Char.toNat := by
  induction text with
  | nil =>
    intro fuel _
    cases fuel <;> rfl
  | cons c text ih =>
    intro fuel bound
    have whole : utf8Bytes (c :: text) = String.utf8EncodeChar c ++ utf8Bytes text := rfl
    have size := Char.utf8Size_pos c
    have first : 0 < (String.utf8EncodeChar c).length := by
      rw [String.length_utf8EncodeChar]
      exact size
    rw [whole, List.length_append] at bound
    cases fuel with
    | zero => omega
    | succ fuel =>
      have filled : String.utf8EncodeChar c ++ utf8Bytes text ≠ [] :=
        List.append_ne_nil_of_left_ne_nil (List.ne_nil_of_length_pos first) _
      rw [whole, pxCodes, if_neg filled, pxCode_character, List.drop_left, List.map_cons,
        ih (by omega)]

theorem badCode_character (c : Char) : badCode c.toNat = false := by
  have valid := c.valid
  rw [UInt32.isValidChar, Nat.isValidChar] at valid
  have value : c.val.toNat = c.toNat := rfl
  rw [Bool.eq_false_iff, ne_eq, badCode_iff]
  omega

end Loops

section Units

theorem wideUnits_small {cp : Nat} (small : cp < 0x10000) : wideUnits cp = [cp] := by
  rw [wideUnits, if_neg (Nat.not_le_of_lt small)]
  exact congrArg (fun unit => [unit]) (Nat.mod_eq_of_lt small)

theorem wideUnits_pair {cp : Nat} (large : 0x10000 ≤ cp) (bound : cp < 0x200000) :
    wideUnits cp = [0xD800 + (cp - 0x10000) / 1024, 0xDC00 + (cp - 0x10000) % 1024] := by
  rw [wideUnits, if_pos large, (and_low _).2.2.2.2, Nat.shiftRight_eq_div_pow]
  change [(0xD800 + (cp - 0x10000) / 1024) % 65536, (0xDC00 + (cp - 0x10000) % 1024) % 65536] = _
  rw [Nat.mod_eq_of_lt (by omega), Nat.mod_eq_of_lt (by omega)]

theorem badCode_fixedCode (cp : Nat) : badCode (fixedCode cp) = false := by
  rw [fixedCode]
  split
  next => decide
  next good => exact Bool.eq_false_iff.mpr good

theorem good_bounds {cp : Nat} (good : badCode cp = false) :
    cp ≤ 0x10FFFF ∧ ¬(0xD800 ≤ cp ∧ cp ≤ 0xDFFF) := by
  rw [Bool.eq_false_iff, ne_eq, badCode_iff] at good
  omega

theorem WellFormedUnits.cons_code {cp : Nat} (good : badCode cp = false) {units : List Nat}
    (rest : WellFormedUnits units) : WellFormedUnits (wideUnits cp ++ units) := by
  have bounds := good_bounds good
  by_cases small : cp < 0x10000
  · rw [wideUnits_small small]
    exact .unit small good rest
  · rw [wideUnits_pair (Nat.le_of_not_lt small) (by omega)]
    refine .pair ?_ ?_ rest
    · simp only [highSurrogate, Bool.and_eq_true, decide_eq_true_eq]
      omega
    · simp only [lowSurrogate, Bool.and_eq_true, decide_eq_true_eq]
      omega

theorem wellFormedUnits_fixed (codes : List Nat) :
    WellFormedUnits (codes.flatMap fun cp => wideUnits (fixedCode cp)) := by
  induction codes with
  | nil => exact .nil
  | cons cp codes ih => exact ih.cons_code (badCode_fixedCode cp)

/-- A code of no character is not written as U+FFFD. -/
theorem wideUnits_bad {cp : Nat} (bad : badCode cp = true) (bound : cp < 0x200000)
    (before after : List Nat) : wideUnits cp ++ before ≠ wideUnits 0xFFFD ++ after := by
  rw [badCode_iff] at bad
  rw [wideUnits_small (by decide : 0xFFFD < 0x10000)]
  intro same
  by_cases small : cp < 0x10000
  · rw [wideUnits_small small] at same
    have first := (List.cons.inj same).1
    omega
  · rw [wideUnits_pair (Nat.le_of_not_lt small) bound] at same
    have first := (List.cons.inj same).1
    omega

theorem units_same_iff {codes : List Nat} (bound : ∀ cp ∈ codes, cp < 0x200000) :
    codes.flatMap wideUnits = codes.flatMap (fun cp => wideUnits (fixedCode cp)) ↔
      ∀ cp ∈ codes, badCode cp = false := by
  induction codes with
  | nil => exact iff_of_true rfl (List.forall_mem_nil _)
  | cons cp codes ih =>
    rw [List.flatMap_cons, List.flatMap_cons, List.forall_mem_cons]
    cases bad : badCode cp with
    | true =>
      refine iff_of_false ?_ fun all => Bool.noConfusion all.1
      rw [fixedCode, if_pos bad]
      exact wideUnits_bad bad (bound cp List.mem_cons_self) _ _
    | false =>
      rw [fixedCode, if_neg (by rw [bad]; decide), List.append_cancel_left_eq,
        ih fun code member => bound code (List.mem_cons_of_mem cp member), and_iff_right rfl]

theorem pairCode_units (a b : Nat) :
    pairCode (0xD800 + a) (0xDC00 + b) = 0x10000 + a * 1024 + b := by
  have high : 0xD800 + a - 0xD800 = a := Nat.add_sub_cancel_left _ a
  have low : 0xDC00 + b - 0xDC00 = b := Nat.add_sub_cancel_left _ b
  have shifted : a <<< 10 = a * 1024 := Nat.shiftLeft_eq a 10
  unfold pairCode
  simp only [high, low, shifted]

/-- The units of a character are read back as its code. -/
theorem units_read {cp : Nat} (good : badCode cp = false) : ∃ unit tail,
    wideUnits cp = unit :: tail ∧ ∀ rest,
      pxPair unit (tail ++ rest) = (cp, tail.length + 1) ∧
        msPair unit (tail ++ rest) = (cp, tail.length + 1) := by
  have bounds := good_bounds good
  by_cases small : cp < 0x10000
  · have no_high : highSurrogate cp = false := by
      simp only [highSurrogate, Bool.and_eq_false_iff, decide_eq_false_iff_not]
      omega
    refine ⟨cp, [], wideUnits_small small, fun rest => ?_⟩
    rw [pxPair, msPair, no_high, if_neg bounds.2]
    exact ⟨rfl, rfl⟩
  · have high : highSurrogate (0xD800 + (cp - 0x10000) / 1024) = true := by
      simp only [highSurrogate, Bool.and_eq_true, decide_eq_true_eq]
      omega
    have low : lowSurrogate (0xDC00 + (cp - 0x10000) % 1024) = true := by
      simp only [lowSurrogate, Bool.and_eq_true, decide_eq_true_eq]
      omega
    have code : pairCode (0xD800 + (cp - 0x10000) / 1024) (0xDC00 + (cp - 0x10000) % 1024) =
        cp := by
      rw [pairCode_units]
      omega
    refine ⟨_, _, wideUnits_pair (Nat.le_of_not_lt small) (by omega), fun rest => ?_⟩
    rw [List.singleton_append, pxPair, msPair, List.head?_cons, Option.any_some, List.headD_cons,
      List.isEmpty_cons, high, low, code]
    exact ⟨rfl, rfl⟩

theorem codeUtf8_character (c : Char) : codeUtf8 c.toNat = String.utf8EncodeChar c := by
  have bound := toNat_lt c
  have lead : (∀ n < 32, 0xC0 ||| n = n + 192) ∧ (∀ n < 16, 0xE0 ||| n = n + 224) ∧
      (∀ n < 8, 0xF0 ||| n = n + 240) ∧ ∀ n < 64, 0x80 ||| n = n + 128 := by decide +kernel
  have encoded : String.utf8EncodeChar c = if c.toNat ≤ 0x7F then [UInt8.ofNat c.toNat] else
      if c.toNat ≤ 0x7FF then
        [UInt8.ofNat (c.toNat / 64 % 32 + 192), UInt8.ofNat (c.toNat % 64 + 128)] else
      if c.toNat ≤ 0xFFFF then
        [UInt8.ofNat (c.toNat / 4096 % 16 + 224), UInt8.ofNat (c.toNat / 64 % 64 + 128),
          UInt8.ofNat (c.toNat % 64 + 128)] else
        [UInt8.ofNat (c.toNat / 262144 % 8 + 240), UInt8.ofNat (c.toNat / 4096 % 64 + 128),
          UInt8.ofNat (c.toNat / 64 % 64 + 128), UInt8.ofNat (c.toNat % 64 + 128)] := rfl
  obtain ⟨two, three, four, tail⟩ := lead
  rw [encoded, codeUtf8]
  simp only [(and_low _).1, Nat.shiftRight_eq_div_pow]
  by_cases first : c.toNat < 0x80
  · rw [if_pos first, if_pos (by omega)]
    rfl
  by_cases second : c.toNat < 0x800
  · rw [if_neg first, if_pos second, if_neg (by omega), if_pos (by omega),
      two _ (by omega : c.toNat / 2 ^ 6 < 32), tail _ (by omega)]
    rw [Nat.mod_eq_of_lt (by omega : c.toNat / 64 < 32)]
    rfl
  by_cases third : c.toNat < 0x10000
  · rw [if_neg first, if_neg second, if_pos third, if_neg (by omega), if_neg (by omega),
      if_pos (by omega), three _ (by omega : c.toNat / 2 ^ 12 < 16), tail _ (by omega),
      tail _ (by omega), Nat.mod_eq_of_lt (by omega : c.toNat / 4096 < 16)]
    rfl
  · rw [if_neg first, if_neg second, if_neg third, if_neg (by omega), if_neg (by omega),
      if_neg (by omega), four _ (by omega : c.toNat / 2 ^ 18 < 8), tail _ (by omega),
      tail _ (by omega), tail _ (by omega), Nat.mod_eq_of_lt (by omega : c.toNat / 262144 < 8)]
    rfl

theorem littleUnits_littleBytes {units : List Nat} (small : ∀ unit ∈ units, unit < 0x10000) :
    littleUnits (littleBytes units) = units := by
  induction units with
  | nil => rfl
  | cons unit units ih =>
    have bound := small unit List.mem_cons_self
    have rest := ih fun u member => small u (List.mem_cons_of_mem unit member)
    have step : littleBytes (unit :: units) =
        UInt8.ofNat unit :: UInt8.ofNat (unit >>> 8) :: littleBytes units := rfl
    have value : unit % 256 ||| (unit / 256 % 256) <<< 8 = unit := by
      rw [Nat.or_comm, ← Nat.shiftLeft_add_eq_or_of_lt (i := 8) (by omega), Nat.shiftLeft_eq]
      omega
    rw [step, littleUnits, rest, UInt8.toNat_ofNat', UInt8.toNat_ofNat', Nat.shiftRight_eq_div_pow]
    exact congrArg (· :: units) value

end Units

section RoundTrip

/-- The units of a text. -/
def textUnits (text : List Char) : List Nat := text.flatMap fun c => wideUnits c.toNat

theorem utf8ToWide_utf8Bytes (text : List Char) : utf8ToWide (utf8Bytes text) = textUnits text := by
  rw [utf8ToWide, wideLoop_eq, pxCodes_utf8Bytes (Nat.le_refl _), List.flatMap_map, textUnits]
  congr 1
  ext1 c
  rw [fixedCode, badCode_character, if_neg Bool.false_ne_true]

theorem length_wideUnits_pos (c : Char) : 0 < (wideUnits c.toNat).length := by
  obtain ⟨unit, tail, units, -⟩ := units_read (badCode_character c)
  rw [units]
  exact Nat.succ_pos _

theorem pxBackLoop_textUnits {outSize : Nat} {text : List Char} : ∀ {fuel k : Nat},
    (textUnits text).length ≤ fuel → k + (utf8Bytes text).length < outSize →
    pxBackLoop outSize fuel (textUnits text) k = some (utf8Bytes text) := by
  induction text with
  | nil =>
    intro fuel k _ _
    cases fuel <;> rfl
  | cons c text ih =>
    intro fuel k enough room
    obtain ⟨unit, tail, units, read⟩ := units_read (badCode_character c)
    have whole : textUnits (c :: text) = unit :: (tail ++ textUnits text) := by
      rw [textUnits, List.flatMap_cons, units]
      rfl
    have bytes : utf8Bytes (c :: text) = String.utf8EncodeChar c ++ utf8Bytes text := rfl
    rw [whole, List.length_cons, List.length_append] at enough
    rw [bytes, List.length_append] at room
    cases fuel with
    | zero => omega
    | succ fuel =>
      rw [whole, pxBackLoop, (read (textUnits text)).1]
      dsimp only
      rw [codeUtf8_character, if_neg (by omega), List.drop_succ_cons, List.drop_left,
        ih (by omega) (by omega)]
      rfl

theorem msBackLoop_textUnits {text : List Char} : ∀ {fuel : Nat},
    (textUnits text).length ≤ fuel → msBackLoop fuel (textUnits text) = utf8Bytes text := by
  induction text with
  | nil =>
    intro fuel _
    cases fuel <;> rfl
  | cons c text ih =>
    intro fuel enough
    obtain ⟨unit, tail, units, read⟩ := units_read (badCode_character c)
    have whole : textUnits (c :: text) = unit :: (tail ++ textUnits text) := by
      rw [textUnits, List.flatMap_cons, units]
      rfl
    rw [whole, List.length_cons, List.length_append] at enough
    cases fuel with
    | zero => omega
    | succ fuel =>
      rw [whole, msBackLoop, (read (textUnits text)).2, codeUtf8_character, List.drop_succ_cons,
        List.drop_left, ih (by omega)]
      rfl

theorem textUnits_small (text : List Char) : ∀ unit ∈ textUnits text, unit < 0x10000 := by
  intro unit member
  obtain ⟨c, -, member⟩ := List.mem_flatMap.mp member
  have bound := toNat_lt c
  by_cases small : c.toNat < 0x10000
  · rw [wideUnits_small small, List.mem_singleton] at member
    rwa [member]
  · rw [wideUnits_pair (Nat.le_of_not_lt small) (by omega)] at member
    rcases List.mem_cons.mp member with rfl | member
    · omega
    · rw [List.mem_singleton] at member
      omega

end RoundTrip

/-- The converters keep their promise of a byte string exactly when no part of it is the bytes of
a surrogate or of a code beyond U+10FFFF. -/
theorem converters_agree_iff (s : List UInt8) :
    ConvertersAgree s ↔ ∀ t, t <:+ s → ¬BadSequence t := by
  have wide : utf8ToWide s =
      (pxCodes s.length s).flatMap fun cp => wideUnits (fixedCode cp) := wideLoop_eq s.length s
  have sound : WellFormedUnits (utf8ToWide s) := wide ▸ wellFormedUnits_fixed _
  have same : (pxCodes s.length s).flatMap wideUnits = utf8ToWide s ↔
      ∀ t, t <:+ s → ¬BadSequence t := by
    rw [wide, units_same_iff pxCodes_lt]
    have bad := exists_bad_iff (Nat.le_refl s.length)
    constructor
    · intro good t suffix sequence
      obtain ⟨cp, member, code⟩ := bad.mpr ⟨t, suffix, sequence⟩
      rw [good cp member] at code
      cases code
    · intro clean cp member
      rw [Bool.eq_false_iff]
      intro code
      obtain ⟨t, suffix, sequence⟩ := bad.mp ⟨cp, member, code⟩
      exact clean t suffix sequence
  rw [← same]
  constructor
  · rintro ⟨equal, -, -⟩
    have made := @pxLoop_some (((pxCodes s.length s).flatMap wideUnits).length + 1) s.length s 0
      (by omega)
    exact (equal _ _ made).1
  · intro equal
    refine ⟨fun cap units made => ?_, sound, ?_⟩
    · have read := pxLoop_eq_some made
      rw [equal] at read
      exact ⟨read, read ▸ sound⟩
    · rintro text rfl
      rw [utf8ToWide_utf8Bytes]
      refine ⟨fun outSize room => ?_, ?_⟩
      · exact pxBackLoop_textUnits (Nat.le_refl _) (by omega)
      · rw [msUtf16ToUtf8, littleUnits_littleBytes (textUnits_small text)]
        exact msBackLoop_textUnits (Nat.le_refl _)

/-- A surrogate goes through `px_to_utf16` alone. -/
theorem surrogate_differs : ¬ConvertersAgree [0xED, 0xA0, 0x80] := by
  rintro ⟨same, -⟩
  have units := (same 8 [0xD800] (by decide)).1
  exact absurd units (by decide)

end OciWrapper.Mssql
