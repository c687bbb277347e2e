import Mathlib.Data.List.GetD

/-!
# Standard base64 with canonical padding

The RFC 4648 alphabet, encoder and decoder.  Three bytes become four digits.
A final group of one or two bytes is padded with `=`, the padding is mandatory
on decoding, and the bits of the last digit which carry no data must be zero.

With these three conditions the decoder accepts exactly the image of the
encoder (`decode_eq_some_iff`), so a byte string has one spelling only.
-/

namespace NixPqcCache.Foundation.Base64

/-- The sixty-four digits, in order of their value. -/
def alphabet : List Char :=
  "ABCDEFGHIJKLMNOPQRSTUVWXYZabcdefghijklmnopqrstuvwxyz0123456789+/".toList

/-- The digit of a six-bit value. -/
def digit (value : Nat) : Char :=
  alphabet.getD value '='

/-- The six-bit value of a digit. -/
def value? (symbol : Char) : Option Nat :=
  alphabet.idxOf? symbol

theorem value?_digit {value : Nat} (bound : value < 64) :
    value? (digit value) = some value := by
  have all : ∀ small : Fin 64, value? (digit small) = some small.val := by
    decide +kernel
  exact all ⟨value, bound⟩

theorem digit_of_value? {symbol : Char} {value : Nat}
    (found : value? symbol = some value) :
    value < 64 ∧ digit value = symbol := by
  rcases List.findIdx?_eq_some_iff_getElem.mp found with ⟨bound, equal, -⟩
  refine ⟨bound, ?_⟩
  rw [digit, List.getD_eq_getElem _ _ bound]
  exact beq_iff_eq.mp equal

@[simp]
theorem value?_padding : value? '=' = none := by
  decide

theorem digit_ne_padding {value : Nat} (bound : value < 64) :
    digit value ≠ '=' := by
  intro equal
  have found := value?_digit bound
  rw [equal, value?_padding] at found
  cases found

theorem toNat_ofNat {value : Nat} (bound : value < 256) :
    (UInt8.ofNat value).toNat = value :=
  UInt8.toNat_ofNat_of_lt' bound

/-! ## Encoding -/

/-- Encode a byte string, three bytes at a time. -/
def encode : List UInt8 → List Char
  | [] => []
  | [first] =>
      [digit (first.toNat / 4), digit (first.toNat % 4 * 16), '=', '=']
  | [first, second] =>
      [digit (first.toNat / 4),
        digit (first.toNat % 4 * 16 + second.toNat / 16),
        digit (second.toNat % 16 * 4), '=']
  | first :: second :: third :: rest =>
      digit (first.toNat / 4) ::
        digit (first.toNat % 4 * 16 + second.toNat / 16) ::
          digit (second.toNat % 16 * 4 + third.toNat / 64) ::
            digit (third.toNat % 64) :: encode rest

/-- Four digits are emitted for every group of three bytes or fewer. -/
theorem length_encode (bytes : List UInt8) :
    (encode bytes).length = (bytes.length + 2) / 3 * 4 := by
  induction bytes using encode.induct with
  | case1 => rfl
  | case2 => simp [encode]
  | case3 => simp [encode]
  | case4 first second third rest induction =>
      simp only [encode, List.length_cons, induction]
      omega

theorem digit_mem_alphabet {value : Nat} (bound : value < 64) :
    digit value ∈ alphabet := by
  have length : value < alphabet.length := bound
  rw [digit, List.getD_eq_getElem _ _ length]
  exact List.getElem_mem length

/-- Encoded text is made of digits and padding. -/
theorem mem_encode {bytes : List UInt8} {symbol : Char}
    (member : symbol ∈ encode bytes) :
    symbol ∈ alphabet ∨ symbol = '=' := by
  induction bytes using encode.induct with
  | case1 => simp [encode] at member
  | case2 first =>
      have := first.toNat_lt
      simp only [encode, List.mem_cons, List.not_mem_nil, or_false] at member
      rcases member with rfl | rfl | rfl | rfl
      · exact Or.inl (digit_mem_alphabet (by omega))
      · exact Or.inl (digit_mem_alphabet (by omega))
      · exact Or.inr rfl
      · exact Or.inr rfl
  | case3 first second =>
      have := first.toNat_lt
      have := second.toNat_lt
      simp only [encode, List.mem_cons, List.not_mem_nil, or_false] at member
      rcases member with rfl | rfl | rfl | rfl
      · exact Or.inl (digit_mem_alphabet (by omega))
      · exact Or.inl (digit_mem_alphabet (by omega))
      · exact Or.inl (digit_mem_alphabet (by omega))
      · exact Or.inr rfl
  | case4 first second third rest induction =>
      have := first.toNat_lt
      have := second.toNat_lt
      have := third.toNat_lt
      simp only [encode, List.mem_cons] at member
      rcases member with rfl | rfl | rfl | rfl | later
      · exact Or.inl (digit_mem_alphabet (by omega))
      · exact Or.inl (digit_mem_alphabet (by omega))
      · exact Or.inl (digit_mem_alphabet (by omega))
      · exact Or.inl (digit_mem_alphabet (by omega))
      · exact induction later

/-- A symbol outside the alphabet, padding apart, never appears. -/
theorem not_mem_encode {bytes : List UInt8} {symbol : Char}
    (outside : symbol ∉ alphabet) (notPadding : symbol ≠ '=') :
    symbol ∉ encode bytes :=
  fun member => (mem_encode member).elim outside notPadding

/-! ## Decoding -/

/-- The final group `"wx=="`: one byte, and four bits that must be zero. -/
def decodeOne (w x : Char) : Option (List UInt8) := do
  let first ← value? w
  let second ← value? x
  if second % 16 = 0 then
    some [UInt8.ofNat (first * 4 + second / 16)]
  else none

/-- The final group `"wxy="`: two bytes, and two bits that must be zero. -/
def decodeTwo (w x y : Char) : Option (List UInt8) := do
  let first ← value? w
  let second ← value? x
  let third ← value? y
  if third % 4 = 0 then
    some [UInt8.ofNat (first * 4 + second / 16),
      UInt8.ofNat (second % 16 * 16 + third / 4)]
  else none

/-- A group `"wxyz"` without padding: three bytes. -/
def decodeThree (w x y z : Char) : Option (List UInt8) := do
  let first ← value? w
  let second ← value? x
  let third ← value? y
  let fourth ← value? z
  some [UInt8.ofNat (first * 4 + second / 16),
    UInt8.ofNat (second % 16 * 16 + third / 4),
    UInt8.ofNat (third % 4 * 64 + fourth)]

/-- Decode a text, four digits at a time; only the last group is padded. -/
def decode : List Char → Option (List UInt8)
  | [] => some []
  | w :: x :: y :: z :: rest =>
      if rest = [] ∧ z = '=' then
        if y = '=' then decodeOne w x else decodeTwo w x y
      else do
        let group ← decodeThree w x y z
        let tail ← decode rest
        some (group ++ tail)
  | _ => none

theorem decodeOne_eq_some_iff {w x : Char} {bytes : List UInt8} :
    decodeOne w x = some bytes ↔
      ∃ first : UInt8, bytes = [first] ∧
        [w, x, '=', '='] = encode [first] := by
  constructor
  · intro decoded
    simp only [decodeOne, Option.bind_eq_bind,
      Option.bind_eq_some_iff] at decoded
    rcases decoded with ⟨a, wFound, b, xFound, decoded⟩
    rcases digit_of_value? wFound with ⟨aBound, rfl⟩
    rcases digit_of_value? xFound with ⟨bBound, rfl⟩
    split at decoded
    next zero =>
      rcases Option.some.inj decoded with rfl
      refine ⟨_, rfl, ?_⟩
      have byte : (UInt8.ofNat (a * 4 + b / 16)).toNat = a * 4 + b / 16 :=
        toNat_ofNat (by omega)
      have high : (a * 4 + b / 16) / 4 = a := by omega
      have low : (a * 4 + b / 16) % 4 * 16 = b := by omega
      rw [encode, byte, high, low]
    next => cases decoded
  · rintro ⟨first, rfl, equal⟩
    have bound := first.toNat_lt
    simp only [encode, List.cons.injEq, and_true] at equal
    rcases equal with ⟨rfl, rfl⟩
    rw [decodeOne, value?_digit (by omega), value?_digit (by omega)]
    have zero : first.toNat % 4 * 16 % 16 = 0 := by omega
    have joined :
        first.toNat / 4 * 4 + first.toNat % 4 * 16 / 16 = first.toNat := by
      omega
    simp only [Option.bind_eq_bind, Option.bind_some, zero, if_true, joined,
      UInt8.ofNat_toNat]

theorem decodeTwo_eq_some_iff {w x y : Char} {bytes : List UInt8} :
    decodeTwo w x y = some bytes ↔
      ∃ first second : UInt8, bytes = [first, second] ∧
        [w, x, y, '='] = encode [first, second] := by
  constructor
  · intro decoded
    simp only [decodeTwo, Option.bind_eq_bind,
      Option.bind_eq_some_iff] at decoded
    rcases decoded with ⟨a, wFound, b, xFound, c, yFound, decoded⟩
    rcases digit_of_value? wFound with ⟨aBound, rfl⟩
    rcases digit_of_value? xFound with ⟨bBound, rfl⟩
    rcases digit_of_value? yFound with ⟨cBound, rfl⟩
    split at decoded
    next zero =>
      rcases Option.some.inj decoded with rfl
      refine ⟨_, _, rfl, ?_⟩
      have first : (UInt8.ofNat (a * 4 + b / 16)).toNat = a * 4 + b / 16 :=
        toNat_ofNat (by omega)
      have second :
          (UInt8.ofNat (b % 16 * 16 + c / 4)).toNat = b % 16 * 16 + c / 4 :=
        toNat_ofNat (by omega)
      have wEq : (a * 4 + b / 16) / 4 = a := by omega
      have xEq :
          (a * 4 + b / 16) % 4 * 16 + (b % 16 * 16 + c / 4) / 16 = b := by
        omega
      have yEq : (b % 16 * 16 + c / 4) % 16 * 4 = c := by omega
      rw [encode, first, second, wEq, xEq, yEq]
    next => cases decoded
  · rintro ⟨first, second, rfl, equal⟩
    have firstBound := first.toNat_lt
    have secondBound := second.toNat_lt
    simp only [encode, List.cons.injEq, and_true] at equal
    rcases equal with ⟨rfl, rfl, rfl⟩
    rw [decodeTwo, value?_digit (by omega), value?_digit (by omega),
      value?_digit (by omega)]
    have zero : second.toNat % 16 * 4 % 4 = 0 := by omega
    have firstEq :
        first.toNat / 4 * 4 +
          (first.toNat % 4 * 16 + second.toNat / 16) / 16 =
            first.toNat := by
      omega
    have secondEq :
        (first.toNat % 4 * 16 + second.toNat / 16) % 16 * 16 +
          second.toNat % 16 * 4 / 4 = second.toNat := by
      omega
    simp only [Option.bind_eq_bind, Option.bind_some, zero, if_true, firstEq,
      secondEq, UInt8.ofNat_toNat]

theorem decodeThree_eq_some_iff {w x y z : Char} {bytes : List UInt8} :
    decodeThree w x y z = some bytes ↔
      ∃ first second third : UInt8, bytes = [first, second, third] ∧
        [w, x, y, z] = encode [first, second, third] := by
  constructor
  · intro decoded
    simp only [decodeThree, Option.bind_eq_bind,
      Option.bind_eq_some_iff] at decoded
    rcases decoded with ⟨a, wFound, b, xFound, c, yFound, d, zFound, decoded⟩
    rcases digit_of_value? wFound with ⟨aBound, rfl⟩
    rcases digit_of_value? xFound with ⟨bBound, rfl⟩
    rcases digit_of_value? yFound with ⟨cBound, rfl⟩
    rcases digit_of_value? zFound with ⟨dBound, rfl⟩
    rcases Option.some.inj decoded with rfl
    refine ⟨_, _, _, rfl, ?_⟩
    have first : (UInt8.ofNat (a * 4 + b / 16)).toNat = a * 4 + b / 16 :=
      toNat_ofNat (by omega)
    have second :
        (UInt8.ofNat (b % 16 * 16 + c / 4)).toNat = b % 16 * 16 + c / 4 :=
      toNat_ofNat (by omega)
    have third : (UInt8.ofNat (c % 4 * 64 + d)).toNat = c % 4 * 64 + d :=
      toNat_ofNat (by omega)
    have wEq : (a * 4 + b / 16) / 4 = a := by omega
    have xEq :
        (a * 4 + b / 16) % 4 * 16 + (b % 16 * 16 + c / 4) / 16 = b := by
      omega
    have yEq :
        (b % 16 * 16 + c / 4) % 16 * 4 + (c % 4 * 64 + d) / 64 = c := by
      omega
    have zEq : (c % 4 * 64 + d) % 64 = d := by omega
    rw [encode, first, second, third, wEq, xEq, yEq, zEq, encode]
  · rintro ⟨first, second, third, rfl, equal⟩
    have firstBound := first.toNat_lt
    have secondBound := second.toNat_lt
    have thirdBound := third.toNat_lt
    simp only [encode, List.cons.injEq, and_true] at equal
    rcases equal with ⟨rfl, rfl, rfl, rfl⟩
    rw [decodeThree, value?_digit (by omega), value?_digit (by omega),
      value?_digit (by omega), value?_digit (by omega)]
    have firstEq :
        first.toNat / 4 * 4 +
          (first.toNat % 4 * 16 + second.toNat / 16) / 16 =
            first.toNat := by
      omega
    have secondEq :
        (first.toNat % 4 * 16 + second.toNat / 16) % 16 * 16 +
          (second.toNat % 16 * 4 + third.toNat / 64) / 4 =
            second.toNat := by
      omega
    have thirdEq :
        (second.toNat % 16 * 4 + third.toNat / 64) % 4 * 64 +
          third.toNat % 64 = third.toNat := by
      omega
    simp only [Option.bind_eq_bind, Option.bind_some, firstEq, secondEq,
      thirdEq, UInt8.ofNat_toNat]

theorem encode_group_append (first second third : UInt8)
    (rest : List UInt8) :
    encode (first :: second :: third :: rest) =
      encode [first, second, third] ++ encode rest := by
  simp [encode]

theorem encode_of_decode {text : List Char} {bytes : List UInt8}
    (decoded : decode text = some bytes) : text = encode bytes := by
  induction text using decode.induct generalizing bytes with
  | case1 =>
      rcases Option.some.inj decoded with rfl
      rfl
  | case2 w x z rest padded =>
      rw [decode, if_pos padded, if_pos rfl] at decoded
      rcases decodeOne_eq_some_iff.mp decoded with ⟨first, rfl, equal⟩
      rw [← equal, padded.1, padded.2]
  | case3 w x y z rest padded paddedOnce =>
      rw [decode, if_pos padded, if_neg paddedOnce] at decoded
      rcases decodeTwo_eq_some_iff.mp decoded with ⟨first, second, rfl, equal⟩
      rw [← equal, padded.1, padded.2]
  | case4 w x y z rest unpadded induction =>
      rw [decode, if_neg unpadded] at decoded
      simp only [Option.bind_eq_bind, Option.bind_eq_some_iff] at decoded
      rcases decoded with ⟨group, groupEq, tail, tailEq, decoded⟩
      rcases Option.some.inj decoded with rfl
      rcases decodeThree_eq_some_iff.mp groupEq with
        ⟨first, second, third, rfl, equal⟩
      have restEq := induction tailEq
      rw [List.cons_append, List.cons_append, List.cons_append,
        List.nil_append, encode_group_append, ← equal, ← restEq]
      rfl
  | case5 text empty short =>
      rw [decode.eq_3 text empty short] at decoded
      cases decoded

/-- Decoding an encoded byte string gives it back. -/
theorem decode_encode (bytes : List UInt8) :
    decode (encode bytes) = some bytes := by
  induction bytes using encode.induct with
  | case1 => rfl
  | case2 first =>
      have decoded :=
        decodeOne_eq_some_iff.mpr ⟨first, rfl, rfl⟩
      simpa [encode, decode] using decoded
  | case3 first second =>
      have bound := second.toNat_lt
      have decoded :=
        decodeTwo_eq_some_iff.mpr ⟨first, second, rfl, rfl⟩
      simpa [encode, decode,
        digit_ne_padding (show second.toNat % 16 * 4 < 64 by omega)]
        using decoded
  | case4 first second third rest induction =>
      have bound := third.toNat_lt
      have decoded :=
        decodeThree_eq_some_iff.mpr ⟨first, second, third, rfl, rfl⟩
      simp [encode, decode, decoded, induction,
        digit_ne_padding (show third.toNat % 64 < 64 by omega)]

/-- The decoder accepts exactly what the encoder produces. -/
theorem decode_eq_some_iff {text : List Char} {bytes : List UInt8} :
    decode text = some bytes ↔ text = encode bytes := by
  constructor
  · exact encode_of_decode
  · rintro rfl
    exact decode_encode bytes

example : encode [102, 111, 111, 98] = "Zm9vYg==".toList := by decide

/-! ## Changing a digit -/

theorem exists_value?_of_mem {symbol : Char} (member : symbol ∈ alphabet) :
    ∃ value, value? symbol = some value := by
  cases found : value? symbol with
  | some value => exact ⟨value, rfl⟩
  | none => exact absurd member (List.idxOf?_eq_none_iff.mp found)

/-- Any four digits are a group of three bytes. -/
theorem exists_encode_eq {w x y z : Char}
    (digits : ∀ symbol ∈ [w, x, y, z], symbol ∈ alphabet) :
    ∃ first second third, [w, x, y, z] = encode [first, second, third] := by
  rcases exists_value?_of_mem (digits w (by simp)) with ⟨a, wFound⟩
  rcases exists_value?_of_mem (digits x (by simp)) with ⟨b, xFound⟩
  rcases exists_value?_of_mem (digits y (by simp)) with ⟨c, yFound⟩
  rcases exists_value?_of_mem (digits z (by simp)) with ⟨d, zFound⟩
  have decodes : ∃ bytes, decodeThree w x y z = some bytes := by
    simp [decodeThree, wFound, xFound, yFound, zFound]
  rcases decodes with ⟨bytes, decoded⟩
  rcases decodeThree_eq_some_iff.mp decoded with
    ⟨first, second, third, -, equal⟩
  exact ⟨first, second, third, equal⟩

/-- A full group is made of digits. -/
theorem mem_alphabet_of_mem_group {first second third : UInt8}
    {symbol : Char} (member : symbol ∈ encode [first, second, third]) :
    symbol ∈ alphabet := by
  have firstBound := first.toNat_lt
  have secondBound := second.toNat_lt
  have thirdBound := third.toNat_lt
  simp only [encode, List.mem_cons, List.not_mem_nil, or_false] at member
  rcases member with rfl | rfl | rfl | rfl
  · exact digit_mem_alphabet (by omega)
  · exact digit_mem_alphabet (by omega)
  · exact digit_mem_alphabet (by omega)
  · exact digit_mem_alphabet (by omega)

/-- In a full group any digit may stand for another one. -/
theorem exists_encode_set_group (first second third : UInt8) (offset : Nat)
    {symbol : Char} (isDigit : symbol ∈ alphabet) :
    ∃ a b c, (encode [first, second, third]).set offset symbol =
      encode [a, b, c] := by
  have length :
      ((encode [first, second, third]).set offset symbol).length = 4 := by
    simp [encode]
  have digits : ∀ other ∈ (encode [first, second, third]).set offset symbol,
      other ∈ alphabet := by
    intro other member
    rcases List.mem_or_eq_of_mem_set member with old | rfl
    · exact mem_alphabet_of_mem_group old
    · exact isDigit
  generalize (encode [first, second, third]).set offset symbol = changed
    at length digits
  match changed, length with
  | [w, x, y, z], _ => exact exists_encode_eq digits

/--
A digit of a full group that is changed into another digit changes bytes of
its group, and neither the bytes before it nor how many there are.
-/
theorem exists_encode_set (bytes : List UInt8) {index : Nat} {symbol : Char}
    (full : index < bytes.length / 3 * 4) (isDigit : symbol ∈ alphabet) :
    ∃ other, (encode bytes).set index symbol = encode other ∧
      other.length = bytes.length ∧
        other.take (index / 4 * 3) = bytes.take (index / 4 * 3) := by
  induction bytes using encode.induct generalizing index with
  | case1 => simp at full
  | case2 first => simp at full
  | case3 first second => simp at full
  | case4 first second third rest induction =>
      have groupLength : (encode [first, second, third]).length = 4 := by
        simp [encode]
      rw [encode_group_append]
      by_cases inside : index < 4
      · rcases exists_encode_set_group first second third index isDigit with
          ⟨a, b, c, changed⟩
        refine ⟨a :: b :: c :: rest, ?_, by simp, ?_⟩
        · rw [List.set_append_left _ _ (by omega), changed,
            ← encode_group_append]
        · have start : index / 4 * 3 = 0 := by omega
          rw [start, List.take_zero, List.take_zero]
      · have later : index - 4 < rest.length / 3 * 4 := by
          simp only [List.length_cons] at full
          omega
        rcases induction later with ⟨other, changed, length, kept⟩
        refine ⟨first :: second :: third :: other, ?_, ?_, ?_⟩
        · rw [List.set_append_right _ _ (by omega), groupLength, changed,
            ← encode_group_append]
        · simp [length]
        · have start : index / 4 * 3 = (index - 4) / 4 * 3 + 3 := by omega
          rw [start]
          simp [kept]

end NixPqcCache.Foundation.Base64
