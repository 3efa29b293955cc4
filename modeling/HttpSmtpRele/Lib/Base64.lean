import Mathlib.Data.String.Basic

/-!
# Base64

Three bytes are four characters of the standard alphabet; one or two bytes at the
end are padded to four.  The decoder takes canonical text only: padding where it
is due, and no bits that stand for nothing.  Every list of bytes has a text
(`decode_encode`), and the length of a text tells how many bytes it stands for
but for the padding (`utf8ByteSize_of_decode`).
-/

namespace Base64

def alphabet : List Char :=
  "ABCDEFGHIJKLMNOPQRSTUVWXYZabcdefghijklmnopqrstuvwxyz0123456789+/".toList

/-- The character of a six-bit number. -/
def digit (n : Nat) : Char := alphabet.getD n 'A'

/-- The number of a character. -/
def value (c : Char) : Option Nat :=
  if c ∈ alphabet then some (alphabet.idxOf c) else none

def encodeChars : List UInt8 → List Char
  | [] => []
  | [a] =>
    [digit (a.toNat / 4), digit (a.toNat % 4 * 16), '=', '=']
  | [a, b] =>
    [digit (a.toNat / 4), digit (a.toNat % 4 * 16 + b.toNat / 16), digit (b.toNat % 16 * 4), '=']
  | a :: b :: c :: rest =>
    digit (a.toNat / 4) :: digit (a.toNat % 4 * 16 + b.toNat / 16) ::
      digit (b.toNat % 16 * 4 + c.toNat / 64) :: digit (c.toNat % 64) :: encodeChars rest

/-- The last group, where it is padded. -/
def decodeLast (c₁ c₂ c₃ : Char) : Option (List UInt8) := do
  let x ← value c₁
  let y ← value c₂
  if c₃ = '=' then
    if y % 16 = 0 then some [.ofNat (x * 4 + y / 16)] else none
  else
    let z ← value c₃
    if z % 4 = 0 then some [.ofNat (x * 4 + y / 16), .ofNat (y % 16 * 16 + z / 4)] else none

/-- Four characters that are not padded. -/
def decodeGroup (c₁ c₂ c₃ c₄ : Char) : Option (List UInt8) := do
  let x ← value c₁
  let y ← value c₂
  let z ← value c₃
  let w ← value c₄
  some [.ofNat (x * 4 + y / 16), .ofNat (y % 16 * 16 + z / 4), .ofNat (z % 4 * 64 + w)]

def decodeChars : List Char → Option (List UInt8)
  | [] => some []
  | c₁ :: c₂ :: c₃ :: c₄ :: rest =>
    if c₄ = '=' ∧ rest = [] then decodeLast c₁ c₂ c₃
    else do
      let bytes ← decodeGroup c₁ c₂ c₃ c₄
      let more ← decodeChars rest
      some (bytes ++ more)
  | _ => none

def encode (bytes : List UInt8) : String := String.ofList (encodeChars bytes)

def decode (s : String) : Option (List UInt8) := decodeChars s.toList

/-! ## Characters -/

theorem value_digit {n : Nat} (h : n < 64) : value (digit n) = some n := by
  have hall : ∀ n : Fin 64, value (digit n) = some n.val := by decide +kernel
  exact hall ⟨n, h⟩

theorem utf8Size_of_value {c : Char} {n : Nat} (h : value c = some n) : c.utf8Size = 1 := by
  unfold value at h
  split at h
  · rename_i hmem
    have hall : (alphabet.all fun c => c.utf8Size == 1) = true := by decide +kernel
    exact beq_iff_eq.mp (List.all_eq_true.mp hall c hmem)
  · cases h

theorem value_pad : value '=' = none := by decide +kernel

theorem digit_ne_pad {n : Nat} (h : n < 64) : digit n ≠ '=' := by
  intro heq
  have hvalue := value_digit h
  rw [heq, value_pad] at hvalue
  cases hvalue

/-! ## Round trip -/

theorem decodeGroup_digits {x y z w : Nat} (hx : x < 64) (hy : y < 64) (hz : z < 64)
    (hw : w < 64) :
    decodeGroup (digit x) (digit y) (digit z) (digit w) =
      some [.ofNat (x * 4 + y / 16), .ofNat (y % 16 * 16 + z / 4), .ofNat (z % 4 * 64 + w)] := by
  rw [decodeGroup, value_digit hx, value_digit hy, value_digit hz, value_digit hw]
  rfl

theorem ofNat_eq {a : UInt8} {n : Nat} (h : n = a.toNat) : UInt8.ofNat n = a := by
  rw [h, UInt8.ofNat_toNat]

theorem decodeChars_encodeChars (bytes : List UInt8) :
    decodeChars (encodeChars bytes) = some bytes := by
  induction bytes using encodeChars.induct with
  | case1 => rfl
  | case2 a =>
    have ha := a.toNat_lt
    rw [encodeChars, decodeChars, if_pos ⟨rfl, rfl⟩, decodeLast, value_digit (by omega),
      value_digit (by omega)]
    show (if a.toNat % 4 * 16 % 16 = 0 then
      some [UInt8.ofNat (a.toNat / 4 * 4 + a.toNat % 4 * 16 / 16)] else none) = some [a]
    rw [if_pos (by omega), ofNat_eq (a := a) (by omega)]
  | case3 a b =>
    have ha := a.toNat_lt
    have hb := b.toNat_lt
    rw [encodeChars, decodeChars, if_pos ⟨rfl, rfl⟩, decodeLast, value_digit (by omega),
      value_digit (by omega)]
    show (if digit (b.toNat % 16 * 4) = '=' then _ else
      (value (digit (b.toNat % 16 * 4))).bind fun z => _) = some [a, b]
    rw [if_neg (digit_ne_pad (by omega)), value_digit (by omega)]
    show (if b.toNat % 16 * 4 % 4 = 0 then
      some [UInt8.ofNat (a.toNat / 4 * 4 + (a.toNat % 4 * 16 + b.toNat / 16) / 16),
        UInt8.ofNat ((a.toNat % 4 * 16 + b.toNat / 16) % 16 * 16 + b.toNat % 16 * 4 / 4)]
      else none) = some [a, b]
    rw [if_pos (by omega), ofNat_eq (a := a) (by omega), ofNat_eq (a := b) (by omega)]
  | case4 a b c rest ih =>
    have ha := a.toNat_lt
    have hb := b.toNat_lt
    have hc := c.toNat_lt
    rw [encodeChars, decodeChars, if_neg fun h => digit_ne_pad (by omega) h.1,
      decodeGroup_digits (by omega) (by omega) (by omega) (by omega), ih]
    rw [ofNat_eq (a := a) (by omega), ofNat_eq (a := b) (by omega), ofNat_eq (a := c) (by omega)]
    rfl

theorem decode_encode (bytes : List UInt8) : decode (encode bytes) = some bytes := by
  rw [decode, encode, String.toList_ofList]
  exact decodeChars_encodeChars bytes

/-! ## Length -/

theorem utf8Len_of_decodeLast {c₁ c₂ c₃ : Char} {bytes : List UInt8}
    (h : decodeLast c₁ c₂ c₃ = some bytes) :
    String.utf8Len [c₁, c₂, c₃, '='] = 4 ∧ (bytes.length = 1 ∨ bytes.length = 2) := by
  simp only [decodeLast, Option.bind_eq_bind, Option.bind_eq_some_iff] at h
  obtain ⟨x, hx, y, hy, h⟩ := h
  have hpad : '='.utf8Size = 1 := rfl
  split at h
  · rename_i hc₃
    obtain rfl := Option.some.inj (Option.ite_none_right_eq_some.mp h).2
    simp [utf8Size_of_value hx, utf8Size_of_value hy, hc₃, hpad]
  · obtain ⟨z, hz, h⟩ := Option.bind_eq_some_iff.mp h
    obtain rfl := Option.some.inj (Option.ite_none_right_eq_some.mp h).2
    simp [utf8Size_of_value hx, utf8Size_of_value hy, utf8Size_of_value hz, hpad]

theorem utf8Len_of_decodeGroup {c₁ c₂ c₃ c₄ : Char} {bytes : List UInt8}
    (h : decodeGroup c₁ c₂ c₃ c₄ = some bytes) :
    String.utf8Len [c₁, c₂, c₃, c₄] = 4 ∧ bytes.length = 3 := by
  simp only [decodeGroup, Option.bind_eq_bind, Option.bind_eq_some_iff] at h
  obtain ⟨x, hx, y, hy, z, hz, w, hw, h⟩ := h
  obtain rfl := Option.some.inj h
  simp [utf8Size_of_value hx, utf8Size_of_value hy, utf8Size_of_value hz, utf8Size_of_value hw]

theorem utf8Len_of_decodeChars {cs : List Char} {bytes : List UInt8}
    (h : decodeChars cs = some bytes) : String.utf8Len cs = 4 * ((bytes.length + 2) / 3) := by
  induction cs using decodeChars.induct generalizing bytes with
  | case1 =>
    cases h
    rfl
  | case2 c₁ c₂ c₃ c₄ rest hlast =>
    obtain ⟨rfl, rfl⟩ := hlast
    rw [decodeChars, if_pos ⟨rfl, rfl⟩] at h
    obtain ⟨hlen, hbytes⟩ := utf8Len_of_decodeLast h
    omega
  | case3 c₁ c₂ c₃ c₄ rest hgroup ih =>
    rw [decodeChars, if_neg hgroup] at h
    obtain ⟨group, hgroup, h⟩ := Option.bind_eq_some_iff.mp h
    obtain ⟨more, hmore, h⟩ := Option.bind_eq_some_iff.mp h
    obtain rfl := Option.some.inj h
    obtain ⟨hlen, hbytes⟩ := utf8Len_of_decodeGroup hgroup
    have hrest := ih hmore
    have hsplit : c₁ :: c₂ :: c₃ :: c₄ :: rest = [c₁, c₂, c₃, c₄] ++ rest := rfl
    rw [hsplit, String.utf8Len_append, List.length_append]
    omega
  | case4 cs hne hshort =>
    -- one to three characters are no group
    rw [decodeChars.eq_3 cs hne hshort] at h
    cases h

/-- Four characters for every three bytes, the last ones padded. -/
theorem utf8ByteSize_of_decode {s : String} {bytes : List UInt8} (h : decode s = some bytes) :
    s.utf8ByteSize = 4 * ((bytes.length + 2) / 3) := by
  rw [← String.ofList_toList (s := s), String.utf8ByteSize_ofList]
  exact utf8Len_of_decodeChars h

end Base64
