import TwoPass.Text.Utf8

/-! The UTF-8 of a text and the text of UTF-8.

`Spells` says which bytes stand for a character. They are the bytes that the character is written as,
and the reader takes them for it. So bytes are read as a text exactly if they are the UTF-8 of it. -/

set_option autoImplicit false

namespace TwoPass.Utf8

/-- The bytes of one character, and its code. -/
inductive Spells : (bytes : List UInt8) → (code : Nat) → Prop
  | one {a : UInt8} (first : a < 0x80) : Spells [a] a.toNat
  | two {a b : UInt8} (first : (0xC2 ≤ a && a ≤ 0xDF) = true) (second : isContinuation b = true) :
    Spells [a, b] (a.toNat % 0x20 * 0x40 + low6 b)
  | three {a b c : UInt8} (first : (0xE0 ≤ a && a ≤ 0xEF) = true)
    (second : isSecondOfThree a b = true) (third : isContinuation c = true) :
    Spells [a, b, c] (a.toNat % 0x10 * 0x1000 + low6 b * 0x40 + low6 c)
  | four {a b c d : UInt8} (first : (0xF0 ≤ a && a ≤ 0xF4) = true)
    (second : isSecondOfFour a b = true) (third : isContinuation c = true)
    (fourth : isContinuation d = true) :
    Spells [a, b, c, d] (a.toNat % 0x8 * 0x40000 + low6 b * 0x1000 + low6 c * 0x40 + low6 d)

section
variable {a b low high : UInt8}

theorem between_iff :
    (low ≤ a && a ≤ high) = true ↔ low.toNat ≤ a.toNat ∧ a.toNat ≤ high.toNat := by
  rw [Bool.and_eq_true, decide_eq_true_eq, decide_eq_true_eq, UInt8.le_iff_toNat_le,
    UInt8.le_iff_toNat_le]

theorem not_lt_of_between {bound : UInt8} (between : (low ≤ a && a ≤ high) = true)
    (above : bound ≤ low) : ¬a < bound := by
  rw [between_iff] at between
  rw [UInt8.le_iff_toNat_le] at above
  rw [UInt8.lt_iff_toNat_lt]
  omega

theorem not_between_of_between {otherLow otherHigh : UInt8}
    (between : (low ≤ a && a ≤ high) = true) (above : otherHigh < low) :
    ¬(otherLow ≤ a && a ≤ otherHigh) = true := by
  rw [between_iff] at between ⊢
  rw [UInt8.lt_iff_toNat_lt] at above
  omega

theorem isContinuation_iff : isContinuation b = true ↔ 0x80 ≤ b.toNat ∧ b.toNat ≤ 0xBF :=
  between_iff

/-- The shortest form begins above what two bytes reach, and leaves the surrogates out. -/
theorem isSecondOfThree_iff : isSecondOfThree a b = true ↔ 0x80 ≤ b.toNat ∧ b.toNat ≤ 0xBF ∧
    (a.toNat = 0xE0 → 0xA0 ≤ b.toNat) ∧ (a.toNat = 0xED → b.toNat ≤ 0x9F) := by
  have least : a = 0xE0 ↔ a.toNat = 0xE0 := UInt8.toNat_inj.symm
  have surrogate : a = 0xED ↔ a.toNat = 0xED := UInt8.toNat_inj.symm
  have raised : (0xA0 ≤ b && b ≤ 0xBF) = true ↔ 0xA0 ≤ b.toNat ∧ b.toNat ≤ 0xBF := between_iff
  have lowered : (0x80 ≤ b && b ≤ 0x9F) = true ↔ 0x80 ≤ b.toNat ∧ b.toNat ≤ 0x9F := between_iff
  simp only [isSecondOfThree, beq_iff_eq, least, surrogate]
  split
  · rw [raised]
    omega
  · split
    · rw [lowered]
      omega
    · rw [isContinuation_iff]
      omega

/-- The shortest form begins above what three bytes reach, and ends with the last scalar value. -/
theorem isSecondOfFour_iff : isSecondOfFour a b = true ↔ 0x80 ≤ b.toNat ∧ b.toNat ≤ 0xBF ∧
    (a.toNat = 0xF0 → 0x90 ≤ b.toNat) ∧ (a.toNat = 0xF4 → b.toNat ≤ 0x8F) := by
  have least : a = 0xF0 ↔ a.toNat = 0xF0 := UInt8.toNat_inj.symm
  have greatest : a = 0xF4 ↔ a.toNat = 0xF4 := UInt8.toNat_inj.symm
  have raised : (0x90 ≤ b && b ≤ 0xBF) = true ↔ 0x90 ≤ b.toNat ∧ b.toNat ≤ 0xBF := between_iff
  have lowered : (0x80 ≤ b && b ≤ 0x8F) = true ↔ 0x80 ≤ b.toNat ∧ b.toNat ≤ 0x8F := between_iff
  simp only [isSecondOfFour, beq_iff_eq, least, greatest]
  split
  · rw [raised]
    omega
  · split
    · rw [lowered]
      omega
    · rw [isContinuation_iff]
      omega

end

section
variable {n : Nat}

theorem ofNat_eq {a : UInt8} (same : n = a.toNat) : UInt8.ofNat n = a := by
  rw [same, UInt8.ofNat_toNat]

-- a continuation byte is six bits above 0x80
theorem toNat_continuation (small : n < 0x40) : (UInt8.ofNat (n + 0x80)).toNat = n + 0x80 :=
  UInt8.toNat_ofNat_of_lt' (by unfold UInt8.size; omega)

theorem isContinuation_ofNat (small : n < 0x40) :
    isContinuation (UInt8.ofNat (n + 0x80)) = true := by
  rw [isContinuation_iff, toNat_continuation small]
  omega

theorem low6_ofNat (small : n < 0x40) : low6 (UInt8.ofNat (n + 0x80)) = n := by
  rw [low6, toNat_continuation small]
  omega

end

theorem spells_utf8EncodeChar (c : Char) : Spells (String.utf8EncodeChar c) c.toNat := by
  have valid : c.toNat < 0xD800 ∨ 0xDFFF < c.toNat ∧ c.toNat < 0x110000 := c.valid
  have value : c.val.toNat = c.toNat := rfl
  have six (n : Nat) : n % 64 < 0x40 := Nat.mod_lt n (by decide)
  rw [String.utf8EncodeChar, value]
  -- one case for each number of bytes; its bounds make the first byte a legal one and the last sum `code`
  generalize c.toNat = code at valid
  split
  · next small =>
    have first : (UInt8.ofNat code).toNat = code := UInt8.toNat_ofNat_of_lt' (by unfold UInt8.size; omega)
    have spelled : Spells [UInt8.ofNat code] (UInt8.ofNat code).toNat := by
      refine .one (UInt8.lt_iff_toNat_lt.mpr ?_)
      rw [first]
      exact Nat.lt_succ_of_le small
    rwa [first] at spelled
  split
  · have first : (UInt8.ofNat (code / 64 % 32 + 192)).toNat = code / 64 % 32 + 192 :=
      UInt8.toNat_ofNat_of_lt' (by unfold UInt8.size; omega)
    have bounds : 0xC2 ≤ (UInt8.ofNat (code / 64 % 32 + 192)).toNat ∧
        (UInt8.ofNat (code / 64 % 32 + 192)).toNat ≤ 0xDF := by omega
    have spelled := Spells.two (between_iff.mpr bounds) (isContinuation_ofNat (six code))
    have whole : (code / 64 % 32 + 192) % 0x20 * 0x40 + code % 64 = code := by omega
    rwa [first, low6_ofNat (six code), whole] at spelled
  split
  · have first : (UInt8.ofNat (code / 4096 % 16 + 224)).toNat = code / 4096 % 16 + 224 :=
      UInt8.toNat_ofNat_of_lt' (by unfold UInt8.size; omega)
    have bounds : 0xE0 ≤ (UInt8.ofNat (code / 4096 % 16 + 224)).toNat ∧
        (UInt8.ofNat (code / 4096 % 16 + 224)).toNat ≤ 0xEF := by omega
    have second : isSecondOfThree (UInt8.ofNat (code / 4096 % 16 + 224))
        (UInt8.ofNat (code / 64 % 64 + 128)) = true := by
      rw [isSecondOfThree_iff, first, toNat_continuation (six (code / 64))]
      omega
    have spelled := Spells.three (between_iff.mpr bounds) second (isContinuation_ofNat (six code))
    have whole : (code / 4096 % 16 + 224) % 0x10 * 0x1000 + code / 64 % 64 * 0x40 + code % 64 =
        code := by omega
    rwa [first, low6_ofNat (six (code / 64)), low6_ofNat (six code), whole] at spelled
  · have first : (UInt8.ofNat (code / 262144 % 8 + 240)).toNat = code / 262144 % 8 + 240 :=
      UInt8.toNat_ofNat_of_lt' (by unfold UInt8.size; omega)
    have bounds : 0xF0 ≤ (UInt8.ofNat (code / 262144 % 8 + 240)).toNat ∧
        (UInt8.ofNat (code / 262144 % 8 + 240)).toNat ≤ 0xF4 := by omega
    have second : isSecondOfFour (UInt8.ofNat (code / 262144 % 8 + 240))
        (UInt8.ofNat (code / 4096 % 64 + 128)) = true := by
      rw [isSecondOfFour_iff, first, toNat_continuation (six (code / 4096))]
      omega
    have spelled := Spells.four (between_iff.mpr bounds) second
      (isContinuation_ofNat (six (code / 64))) (isContinuation_ofNat (six code))
    have whole : (code / 262144 % 8 + 240) % 0x8 * 0x40000 + code / 4096 % 64 * 0x1000 +
        code / 64 % 64 * 0x40 + code % 64 = code := by omega
    rwa [first, low6_ofNat (six (code / 4096)), low6_ofNat (six (code / 64)),
      low6_ofNat (six code), whole] at spelled

section
variable {bytes rest : List UInt8} {code : Nat}

theorem Spells.valid (spells : Spells bytes code) : code.isValidChar := by
  unfold Nat.isValidChar
  cases spells with
  | @one a first =>
    have low : a.toNat < 0x80 := UInt8.lt_iff_toNat_lt.mp first
    omega
  | @two a b first second =>
    rw [isContinuation_iff] at second
    rw [low6]
    omega
  | @three a b c first second third =>
    have bounds : 0xE0 ≤ a.toNat ∧ a.toNat ≤ 0xEF := between_iff.mp first
    rw [isSecondOfThree_iff] at second
    rw [low6, low6]
    omega
  | @four a b c d first second third fourth =>
    have bounds : 0xF0 ≤ a.toNat ∧ a.toNat ≤ 0xF4 := between_iff.mp first
    rw [isSecondOfFour_iff] at second
    rw [low6, low6, low6]
    omega

theorem utf8EncodeChar_of_spells (spells : Spells bytes code) :
    String.utf8EncodeChar (Char.ofNat code) = bytes := by
  have value : (Char.ofNat code).val.toNat = code := by
    rw [Char.ofNat, dif_pos spells.valid]
    rfl
  rw [String.utf8EncodeChar, value]
  cases spells with
  | @one a first =>
    have low : a.toNat < 0x80 := UInt8.lt_iff_toNat_lt.mp first
    rw [if_pos (by omega), ofNat_eq rfl]
  | @two a b first second =>
    have bounds : 0xC2 ≤ a.toNat ∧ a.toNat ≤ 0xDF := between_iff.mp first
    rw [isContinuation_iff] at second
    rw [low6, if_neg (by omega), if_pos (by omega), List.cons.injEq, List.cons.injEq]
    exact ⟨ofNat_eq (by omega), ofNat_eq (by omega), rfl⟩
  | @three a b c first second third =>
    have bounds : 0xE0 ≤ a.toNat ∧ a.toNat ≤ 0xEF := between_iff.mp first
    rw [isSecondOfThree_iff] at second
    rw [isContinuation_iff] at third
    rw [low6, low6, if_neg (by omega), if_neg (by omega), if_pos (by omega), List.cons.injEq,
      List.cons.injEq, List.cons.injEq]
    exact ⟨ofNat_eq (by omega), ofNat_eq (by omega), ofNat_eq (by omega), rfl⟩
  | @four a b c d first second third fourth =>
    have bounds : 0xF0 ≤ a.toNat ∧ a.toNat ≤ 0xF4 := between_iff.mp first
    rw [isSecondOfFour_iff] at second
    rw [isContinuation_iff] at third fourth
    rw [low6, low6, low6, if_neg (by omega), if_neg (by omega), if_neg (by omega), List.cons.injEq,
      List.cons.injEq, List.cons.injEq, List.cons.injEq]
    exact ⟨ofNat_eq (by omega), ofNat_eq (by omega), ofNat_eq (by omega), ofNat_eq (by omega), rfl⟩

theorem decodeFrom_append (spells : Spells bytes code) (position : Nat) (rest : List UInt8) :
    decodeFrom position (bytes ++ rest) =
      (Char.ofNat code :: ·) <$> decodeFrom (position + bytes.length) rest := by
  cases spells with
  | one first =>
    rw [List.singleton_append, decodeFrom.eq_def]
    dsimp only
    rw [if_pos first]
    rfl
  | two first second =>
    rw [List.cons_append, List.singleton_append, decodeFrom.eq_def]
    dsimp only
    rw [if_neg (not_lt_of_between first (by decide)), if_pos first, second]
    rfl
  | three first second third =>
    rw [List.cons_append, List.cons_append, List.singleton_append, decodeFrom.eq_def]
    dsimp only
    rw [if_neg (not_lt_of_between first (by decide)),
      if_neg (not_between_of_between first (by decide)), if_pos first, second, third]
    rfl
  | four first second third fourth =>
    rw [List.cons_append, List.cons_append, List.cons_append, List.singleton_append,
      decodeFrom.eq_def]
    dsimp only
    rw [if_neg (not_lt_of_between first (by decide)),
      if_neg (not_between_of_between first (by decide)),
      if_neg (not_between_of_between first (by decide)), if_pos first, second, third, fourth]
    rfl

theorem decodeFrom_encode (position : Nat) (text : Text) :
    decodeFrom position (encode text) = .ok text := by
  induction text generalizing position with
  | nil => rw [encode, List.flatMap_nil, decodeFrom]
  | cons c rest ih =>
    have read := decodeFrom_append (spells_utf8EncodeChar c) position (encode rest)
    rw [Char.ofNat_toNat, ih] at read
    exact read

theorem encode_of_map {later : Except Fault Text} {text : Text} (spells : Spells bytes code)
    (sound : ∀ {more : Text}, later = .ok more → encode more = rest)
    (read : (Char.ofNat code :: ·) <$> later = .ok text) : encode text = bytes ++ rest := by
  cases later with
  | error fault => cases read
  | ok more =>
    cases read
    rw [encode, List.flatMap_cons, utf8EncodeChar_of_spells spells, ← sound rfl, encode]

theorem encode_of_decodeFrom {position : Nat} {text : Text}
    (read : decodeFrom position bytes = .ok text) : encode text = bytes := by
  -- of the ways the reader can go, those that do not end in a fault are the four spellings
  fun_induction decodeFrom position bytes generalizing text with
  | case1 =>
    cases read
    rfl
  | case2 position a rest first ih => exact encode_of_map (.one first) ih read
  | case5 position a notOne first b rest second ih =>
    exact encode_of_map (.two first (by simpa using second)) ih read
  | case10 position a notOne notTwo first b second c rest third ih =>
    exact encode_of_map (.three first (by simpa using second) (by simpa using third)) ih read
  | case17 position a notOne notTwo notThree first b second c third d rest fourth ih =>
    exact encode_of_map
      (.four first (by simpa using second) (by simpa using third) (by simpa using fourth)) ih read
  | _ => cases read

theorem decode_eq_ok_iff {text : Text} : decode bytes = .ok text ↔ bytes = encode text := by
  constructor
  · exact fun read => (encode_of_decodeFrom read).symm
  · rintro rfl
    exact decodeFrom_encode 0 text

end

end TwoPass.Utf8
